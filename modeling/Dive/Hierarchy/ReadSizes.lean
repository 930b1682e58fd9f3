import Dive.Hierarchy.DrawGroups
import Dive.Hierarchy.EventReads
import Dive.Pm4.Termination

/-!
# Reads of as many dwords as a packet has

* `readSetAmble`, `readSetDrawState`: the packets that `AdvanceCb` and the cache of draw state groups
  read; `packetAt_setAmble`, `packetAt_setDrawState`: the emulator reads just these.
* `ReadsFit`: every read asks for no more than its destination holds.
* `DestinationsHold`: so it is for the readers of a packet, and the cache has room for its groups.
* **`destinationsHold_iff`**: the payload counts for which this is so; a long
  `CP_DRAW_INDX_OFFSET` has another one.
-/

namespace Dive

open PacketRead

theorem toNat_ownBytes (h : Pm4Header) : (ownBytes h).toNat = 4 * (h.type7Count.toNat + 1) :=
  Emulation.toNat_countBytes h

/-! ## The emulator and the cache -/

/-- `CP_SET_AMBLE` in `AdvanceCb`. -/
def readSetAmble (va : UInt64) (h : Pm4Header) : PacketRead Pm4Packet :=
  retrieve va (ownBytes h) .CP_SET_AMBLE

/-- `CP_SET_DRAW_STATE` in `AdvanceCb` and in `CacheSetDrawStateGroupInfo`. -/
def readSetDrawState (va : UInt64) (h : Pm4Header) : PacketRead Pm4Packet :=
  retrieve va (ownBytes h) .CP_SET_DRAW_STATE

/-- The reads of `AdvanceCb` whose length comes from the packet. -/
def advanceCbRead (va : UInt64) (h : Pm4Header) : PacketRead (Option Pm4Packet) :=
  if h.isOpcode CP_SET_AMBLE then some <$> readSetAmble va h
  else if h.isOpcode CP_SET_DRAW_STATE then some <$> readSetDrawState va h
  else pure none

/-- The read of `CacheSetDrawStateGroupInfo`. -/
def cacheRead (va : UInt64) (h : Pm4Header) : PacketRead (Option Pm4Packet) :=
  if h.isOpcode CP_SET_DRAW_STATE then some <$> readSetDrawState va h else pure none

theorem packetAt_setAmble (E : Emulation) (va : UInt64) (h : Pm4Header) :
    E.packetAt va ((h.type7Count + 1).toUInt64 * 4) =
      (readSetAmble va h).run (E.memManager.answer E.submitIndex) := rfl

theorem packetAt_setDrawState (E : Emulation) (va : UInt64) (h : Pm4Header) :
    E.packetAt va ((h.type7Count + 1).toUInt64 * 4) =
      (readSetDrawState va h).run (E.memManager.answer E.submitIndex) := rfl

/-! ## Destinations -/

/-- Every read asks for no more than its destination holds. -/
abbrev ReadsFit {α : Type} (answer : MemoryRead → Bool × Buffer) (p : PacketRead α) : Prop :=
  Query.AllAsked (fun r => r.size.toNat ≤ r.capacity) answer p

/-- So it is for all that reads a packet, whatever the memory answers, and the cache has room for
the groups. -/
def DestinationsHold (h : Pm4Header) : Prop :=
  ∀ answer info t va,
    ReadsFit answer (getEventString info va h t) ∧
    ReadsFit answer (shouldIgnoreEventDuringCorrelation va h) ∧
    ReadsFit answer (getIndexCount va h) ∧
    ReadsFit answer (advanceCbRead va h) ∧
    ReadsFit answer (cacheRead va h) ∧
    (h.isOpcode CP_SET_DRAW_STATE →
      ∀ calls, (⟨calls, va, h⟩ : DrawStatePacket).arraySize ≤ kMaxPendingIbs)

/-- The payloads that fit. -/
def PayloadFits (h : Pm4Header) : Prop :=
  (h.type7Opcode = CP_DRAW_INDX_OFFSET → h.type7Count.toNat ≤ 7) ∧
  (h.type7Opcode = CP_BLIT → h.type7Count.toNat ≤ 5) ∧
  (h.type7Opcode = CP_SET_AMBLE → h.type7Count.toNat ≤ 3) ∧
  (h.type7Opcode = CP_SET_DRAW_STATE → h.type7Count.toNat ≤ 300)

instance : DecidablePred PayloadFits := fun _ => inferInstanceAs (Decidable (_ ∧ _ ∧ _ ∧ _))

section Fits

open Query

variable {answer : MemoryRead → Bool × Buffer} {α : Type} {p : PacketRead α}

theorem readsFit_retrieve {va size : UInt64} {type : PacketType} :
    ReadsFit answer (retrieve va size type) ↔ size.toNat ≤ type.bytes :=
  allAsked_map.trans allAsked_question

theorem readsFit_whole (va : UInt64) (type : PacketType) :
    ReadsFit answer (retrieveWhole va type) := by
  rw [retrieveWhole, readsFit_retrieve, UInt64.toNat_ofNat']
  exact Nat.mod_le _ _

theorem readsFit_own {va : UInt64} {h : Pm4Header} {type : PacketType} :
    ReadsFit answer (retrieve va (ownBytes h) type) ↔
      4 * (h.type7Count.toNat + 1) ≤ type.bytes := by
  rw [readsFit_retrieve, toNat_ownBytes]

theorem readsFit_advanceCb (va : UInt64) (h : Pm4Header) :
    ReadsFit answer (advanceCbRead va h) ↔ ∀ size capacity,
      Emulation.advanceCbAsks h = some (size, capacity) → size.toNat ≤ capacity := by
  rw [advanceCbRead, Emulation.advanceCbAsks]
  split_ifs
  · refine allAsked_map.trans (readsFit_retrieve.trans ⟨?_, fun hall => hall _ _ rfl⟩)
    rintro hfits size capacity ⟨⟩
    exact hfits
  · refine allAsked_map.trans (readsFit_retrieve.trans ⟨?_, fun hall => hall _ _ rfl⟩)
    rintro hfits size capacity ⟨⟩
    exact hfits
  · exact iff_of_true (allAsked_pure _) fun _ _ hnone => by cases hnone

variable (info : Pm4Info) (va : UInt64) (h : Pm4Header) (t : RegisterTracker)

theorem readsFit_getSyncType (opcode : UInt32) :
    ReadsFit answer (getSyncType info va t opcode) := by
  unfold getSyncType
  refine .ite (fun _ => ?_) fun _ => ?_
  · exact (readsFit_whole _ _).bind (allAsked_pure _)
  · exact .ite (fun _ => allAsked_pure _) fun _ => .ite (fun _ => allAsked_pure _) fun _ =>
      .ite (fun _ => allAsked_pure _) fun _ => allAsked_pure _

theorem readsFit_multiString : ReadsFit answer (multiString va) := by
  unfold multiString
  refine (readsFit_whole _ _).bind ?_
  refine .ite (fun _ => allAsked_pure _) fun _ => .ite (fun _ => ?_) fun _ =>
    .ite (fun _ => ?_) fun _ => .ite (fun _ => ?_) fun _ => allAsked_pure _
  all_goals exact (readsFit_whole _ _).bind (allAsked_pure _)

variable {info va h t}

theorem readsFit_getEventString (hdraw : h.type7Opcode = CP_DRAW_INDX_OFFSET →
      h.type7Count.toNat ≤ 7) (hblit : h.type7Opcode = CP_BLIT → h.type7Count.toNat ≤ 5) :
    ReadsFit answer (getEventString info va h t) := by
  have hwhole : ∀ {β : Type} (type : PacketType) (f : Pm4Packet → β),
      ReadsFit answer (f <$> retrieveWhole va type) :=
    fun type f => allAsked_map.mpr (readsFit_whole va type)
  unfold getEventString
  refine .ite (fun _ => hwhole _ _) fun _ => .ite (fun hop => ?_) fun _ =>
    .ite (fun _ => hwhole _ _) fun _ => .ite (fun _ => hwhole _ _) fun _ =>
    .ite (fun _ => ?_) fun _ => .ite (fun _ => hwhole _ _) fun _ =>
    .ite (fun _ => hwhole _ _) fun _ => .ite (fun _ => hwhole _ _) fun _ =>
    .ite (fun hop => ?_) fun _ => .ite (fun _ => ?_) fun _ =>
    .ite (fun _ => allAsked_pure _) fun _ => .ite (fun _ => allAsked_pure _) fun _ =>
    .ite (fun _ => allAsked_pure _) fun _ => allAsked_pure _
  · have hle := hdraw hop
    refine allAsked_map.mpr (readsFit_own.mpr ?_)
    rw [PacketType.bytes]
    omega
  · exact allAsked_map.mpr (readsFit_multiString va)
  · have hle := hblit hop
    refine allAsked_map.mpr (readsFit_own.mpr ?_)
    rw [PacketType.bytes]
    omega
  · exact (readsFit_getSyncType info va t _).bind (allAsked_pure _)

end Fits

theorem isOpcode_iff {h : Pm4Header} (htype : h.type = 7) (opcode : UInt32) :
    h.isOpcode opcode = true ↔ h.type7Opcode = opcode := by
  simp [Pm4Header.isOpcode, htype]

/-- **The reads of a packet stay inside their destinations exactly for these payload counts.**
Nothing rejects a longer packet. -/
theorem destinationsHold_iff {h : Pm4Header} (_ : h.isValid = true) (htype : h.type = 7) :
    DestinationsHold h ↔ PayloadFits h := by
  constructor
  · intro hhold
    obtain ⟨hstring, -, -, hadvance, -, -⟩ :=
      hhold (fun _ => (true, Buffer.zero)) ⟨fun _ => none, fun _ => 0⟩ {} 0
    refine ⟨?_, ?_, ?_, ?_⟩
    · intro hop
      simp only [getEventString, hop] at hstring
      have hfit := readsFit_own.mp (Query.allAsked_map.mp hstring)
      simp only [PacketType.bytes] at hfit
      omega
    · intro hop
      simp only [getEventString, hop] at hstring
      have hfit := readsFit_own.mp (Query.allAsked_map.mp hstring)
      simp only [PacketType.bytes] at hfit
      omega
    · intro hop
      rw [advanceCbRead, if_pos ((isOpcode_iff htype _).mpr hop)] at hadvance
      have hfit := readsFit_own.mp (Query.allAsked_map.mp hadvance)
      simp only [PacketType.bytes] at hfit
      omega
    · intro hop
      have hnot : ¬ h.isOpcode CP_SET_AMBLE = true := by
        rw [isOpcode_iff htype, hop]
        decide
      rw [advanceCbRead, if_neg hnot, if_pos ((isOpcode_iff htype _).mpr hop)] at hadvance
      have hfit := readsFit_own.mp (Query.allAsked_map.mp hadvance)
      simp only [PacketType.bytes] at hfit
      omega
  · rintro ⟨hdraw, hblit, hamble, hstate⟩ answer info t va
    have hstateFits : h.isOpcode CP_SET_DRAW_STATE = true →
        ReadsFit answer (some <$> readSetDrawState va h) := by
      intro hop
      have hle := hstate ((isOpcode_iff htype _).mp hop)
      refine Query.allAsked_map.mpr (readsFit_own.mpr ?_)
      rw [PacketType.bytes]
      omega
    have hown : h.type7Opcode = CP_DRAW_INDX_OFFSET →
        ReadsFit answer (retrieve va (ownBytes h) .CP_DRAW_INDX_OFFSET) := by
      intro hop
      have hle := hdraw hop
      rw [readsFit_own, PacketType.bytes]
      omega
    refine ⟨readsFit_getEventString hdraw hblit, ?_, ?_, ?_, ?_, ?_⟩
    · unfold shouldIgnoreEventDuringCorrelation
      by_cases hop : h.type7Opcode = CP_DRAW_INDX_OFFSET
      · rw [if_neg (not_not_intro hop)]
        exact (hown hop).bind (Query.allAsked_pure _)
      · rw [if_pos hop]
        exact Query.allAsked_pure _
    · refine .ite (fun _ => ?_) fun _ => .ite (fun hop => ?_) fun _ => Query.allAsked_pure _
      · exact Query.allAsked_map.mpr (readsFit_whole _ _)
      · exact Query.allAsked_map.mpr (hown hop)
    · refine .ite ?_ fun _ => .ite hstateFits fun _ => Query.allAsked_pure _
      intro hop
      have hle := hamble ((isOpcode_iff htype _).mp hop)
      refine Query.allAsked_map.mpr (readsFit_own.mpr ?_)
      rw [PacketType.bytes]
      omega
    · exact .ite hstateFits fun _ => Query.allAsked_pure _
    · intro hop calls
      have hle := hstate ((isOpcode_iff htype _).mp hop)
      have hfits : (⟨calls, va, h⟩ : DrawStatePacket).Fits := hle
      have hsize := (DrawStatePacket.arraySize_le hfits).1
      unfold kDrawStateGroups at hsize
      unfold kMaxPendingIbs
      omega

/-- A draw with three dwords of payload. -/
theorem destinationsHold_shortDraw : DestinationsHold ⟨0x70388003⟩ :=
  (destinationsHold_iff (by decide) (by decide)).mpr (by decide +kernel)

/-- A valid `CP_DRAW_INDX_OFFSET` with eight dwords of payload is read into a structure for seven. -/
theorem longDraw_not_hold : (⟨0x70380008⟩ : Pm4Header).isValid = true ∧
    (⟨0x70380008⟩ : Pm4Header).type = 7 ∧ ¬ DestinationsHold ⟨0x70380008⟩ := by
  refine ⟨by decide, by decide, fun hhold => ?_⟩
  have hfit := (hhold (fun _ => (true, Buffer.zero)) ⟨fun _ => none, fun _ => 0⟩ {} 0).1
  have hle : (36 : ℕ) ≤ 32 := hfit ⟨0, 36, 32⟩ List.mem_cons_self
  omega

end Dive
