import Dive.Hierarchy.ReadSizes

/-!
# What a packet is taken to mean depends on its own dwords

* `PacketDwords`, `StoredIn`: a type 7 packet, and an image that has it at an address.
* `Local`: whatever image has the packet, and wherever, it is interpreted alike, with the same reads
  failing.
* `neededDwords`: the payload that the readers of an opcode ask for.
* **`local_iff`**: `Local` holds exactly for the packets that have this payload, so that a short
  `CP_EVENT_WRITE` is not local; `interpret_manager` is about memory managers.
-/

namespace Dive

open PacketRead

/-! ## Packets in images -/

/-- The dwords of a type 7 packet. -/
structure PacketDwords where
  header : Pm4Header
  payload : List UInt32
  isType7 : header.type = 7
  length_payload : payload.length = header.type7Count.toNat

/-- The bytes of a packet. -/
def PacketDwords.bytes (p : PacketDwords) : List UInt8 :=
  (p.header.u32All :: p.payload).flatMap dwordBytes

/-- The image has the packet at an address. -/
def PacketDwords.StoredIn (p : PacketDwords) (I : MemoryImage) (vaAddr : UInt64) : Prop :=
  vaAddr.toNat + p.bytes.length ≤ 2 ^ 64 ∧
    ∀ i < p.bytes.length, I (vaAddr.toNat + i) = p.bytes[i]?

/-- Whatever has the packet, it is interpreted alike, and no read fails in one image only. -/
def Local (p : PacketDwords) : Prop :=
  ∀ info t renderMode vaAddr I J, p.StoredIn I vaAddr → p.StoredIn J vaAddr →
    (interpret info vaAddr p.header t renderMode).outcome Prod.fst I.answer =
      (interpret info vaAddr p.header t renderMode).outcome Prod.fst J.answer

theorem PacketDwords.length_bytes (p : PacketDwords) :
    p.bytes.length = 4 * (p.header.type7Count.toNat + 1) := by
  rw [bytes, length_flatMap_dwordBytes, List.length_cons, p.length_payload]

/-- A read of some of the bytes from `vaAddr` to `vaAddr + n`. -/
def MemoryRead.Inside (vaAddr : UInt64) (n : ℕ) (r : MemoryRead) : Prop :=
  0 < r.size.toNat ∧ vaAddr.toNat ≤ r.vaAddr.toNat ∧
    r.vaAddr.toNat + r.size.toNat ≤ vaAddr.toNat + n

theorem answer_congr {I J : MemoryImage} {vaAddr : UInt64} {n : ℕ} {r : MemoryRead}
    (h : ∀ i < n, I (vaAddr.toNat + i) = J (vaAddr.toNat + i)) (hr : r.Inside vaAddr n) :
    I.answer r = J.answer r := by
  have hbyte : ∀ i < r.size.toNat, I (r.vaAddr.toNat + i) = J (r.vaAddr.toNat + i) := by
    intro i hi
    have hat := h (r.vaAddr.toNat - vaAddr.toNat + i) (by unfold MemoryRead.Inside at hr; omega)
    have haddr : vaAddr.toNat + (r.vaAddr.toNat - vaAddr.toNat + i) = r.vaAddr.toNat + i := by
      unfold MemoryRead.Inside at hr
      omega
    rwa [haddr] at hat
  rw [MemoryImage.answer, MemoryImage.answer, MemoryImage.retrieve, MemoryImage.retrieve]
  by_cases hq : r.vaAddr.toNat + r.size.toNat < 2 ^ 64
  · rw [if_pos hq, if_pos hq, Prod.mk.injEq]
    constructor
    · refine decide_eq_decide.mpr (forall₂_congr fun i hi => ?_)
      rw [hbyte i hi]
    · funext i
      by_cases hi : i < r.size.toNat
      · rw [if_pos hi, if_pos hi, hbyte i hi]
      · rw [if_neg hi, if_neg hi]
  · rw [if_neg hq, if_neg hq]

/-! ## Images for the converse -/

/-- Nothing but the packet, at address 0. -/
def PacketDwords.alone (p : PacketDwords) : MemoryImage := fun a => p.bytes[a]?

/-- The packet at address 0, and zeros everywhere else. -/
def PacketDwords.surrounded (p : PacketDwords) : MemoryImage := fun a => some (p.bytes[a]?.getD 0)

theorem PacketDwords.storedIn_alone (p : PacketDwords) : p.StoredIn p.alone 0 := by
  have hcount := Emulation.type7Count_lt p.header
  refine ⟨?_, fun i _ => ?_⟩
  · rw [p.length_bytes, UInt64.toNat_zero]
    omega
  · rw [alone, UInt64.toNat_zero, Nat.zero_add]

theorem PacketDwords.storedIn_surrounded (p : PacketDwords) : p.StoredIn p.surrounded 0 := by
  refine ⟨p.storedIn_alone.1, fun i hi => ?_⟩
  rw [surrounded, UInt64.toNat_zero, Nat.zero_add, List.getElem?_eq_getElem hi]
  rfl

theorem PacketDwords.isSome_alone (p : PacketDwords) {r : MemoryRead}
    (hq : r.vaAddr.toNat + r.size.toNat < 2 ^ 64)
    (h : (p.surrounded.answer r).1 = (p.alone.answer r).1) :
    ∀ i < r.size.toNat, (p.alone (r.vaAddr.toNat + i)).isSome := by
  rw [MemoryImage.answer, MemoryImage.answer, MemoryImage.retrieve, MemoryImage.retrieve,
    if_pos hq, if_pos hq] at h
  have hall : ∀ i < r.size.toNat, (p.surrounded (r.vaAddr.toNat + i)).isSome := fun _ _ => rfl
  simpa only [decide_eq_true hall, Eq.comm (a := true), decide_eq_true_eq] using h

theorem PacketDwords.answer_eq (p : PacketDwords) (r : MemoryRead)
    (h : (p.surrounded.answer r).1 = (p.alone.answer r).1) :
    p.surrounded.answer r = p.alone.answer r := by
  by_cases hq : r.vaAddr.toNat + r.size.toNat < 2 ^ 64
  · have hall := p.isSome_alone hq h
    apply Prod.ext h
    rw [MemoryImage.answer, MemoryImage.answer, MemoryImage.retrieve, MemoryImage.retrieve,
      if_pos hq, if_pos hq]
    funext i
    dsimp only
    by_cases hi : i < r.size.toNat
    · obtain ⟨b, hb⟩ := Option.isSome_iff_exists.mp (hall i hi)
      rw [if_pos hi, if_pos hi, hb, surrounded]
      rw [alone] at hb
      rw [hb]
      rfl
    · rw [if_neg hi, if_neg hi]
  · rw [MemoryImage.answer, MemoryImage.answer, MemoryImage.retrieve, MemoryImage.retrieve,
      if_neg hq, if_neg hq]

theorem PacketDwords.answer_ne (p : PacketDwords) {r : MemoryRead}
    (hq : r.vaAddr.toNat + r.size.toNat < 2 ^ 64)
    (hr : p.bytes.length < r.vaAddr.toNat + r.size.toNat) (hs : 0 < r.size.toNat) :
    p.surrounded.answer r ≠ p.alone.answer r := by
  intro heq
  have hlast := p.isSome_alone hq (congrArg Prod.fst heq) (r.size.toNat - 1) (by omega)
  rw [alone, List.getElem?_eq_none (by omega)] at hlast
  cases hlast

theorem local_of_inside {p : PacketDwords}
    (h : ∀ info t renderMode vaAddr I, p.StoredIn I vaAddr →
      ∀ r ∈ (interpret info vaAddr p.header t renderMode).asked I.answer,
        r.Inside vaAddr p.bytes.length) : Local p := by
  intro info t renderMode vaAddr I J hI hJ
  refine (Query.outcome_congr Prod.fst _ fun r hr => ?_).symm
  refine answer_congr (fun i hi => ?_) (h info t renderMode vaAddr I hI r hr)
  rw [hI.2 i hi, hJ.2 i hi]

theorem answer_eq_of_local {p : PacketDwords} (h : Local p) (info : Pm4Info) (t : RegisterTracker)
    (renderMode : RenderModeType) :
    ∀ r ∈ (interpret info 0 p.header t renderMode).asked p.surrounded.answer,
      p.surrounded.answer r = p.alone.answer r :=
  Query.answers_eq_of_outcome_eq p.answer_eq
    (h info t renderMode 0 _ _ p.storedIn_surrounded p.storedIn_alone)

/-! ## What the readers ask for -/

/-- The bytes of a packet, and zeros after it. -/
def PacketDwords.contents (p : PacketDwords) : Pm4Packet := fun i => p.bytes.getD i 0

/-- `OPCODE` of a `CP_DRAW_INDIRECT_MULTI`. -/
def PacketDwords.multiOpcode (p : PacketDwords) : ℕ := p.contents.multiOpcode

/-- The dwords of payload that the readers of a packet ask for. -/
def neededDwords (opcode : UInt32) (multiOpcode : ℕ) : ℕ :=
  if opcode = CP_SET_MARKER then 1
  else if opcode = CP_EVENT_WRITE7 then 4
  else if opcode = CP_DRAW_INDX then 5
  else if opcode = CP_DRAW_INDX_OFFSET then 1
  else if opcode = CP_DRAW_INDIRECT then 3
  else if opcode = CP_DRAW_INDX_INDIRECT then 6
  else if opcode = CP_DRAW_INDIRECT_MULTI then
    if multiOpcode = 4 then 9
    else if multiOpcode = 6 then 8
    else if multiOpcode = 7 then 11
    else 6
  else if opcode = CP_DRAW_AUTO then 6
  else if opcode = CP_EXEC_CS_INDIRECT || opcode = CP_EXEC_CS then 4
  else 0

theorem u32_congr {b c : Buffer} {o : ℕ} (h : ∀ i, o ≤ i → i < o + 4 → b i = c i) :
    b.u32 o = c.u32 o := by
  rw [Buffer.u32, Buffer.u32, h o (by omega) (by omega), h (o + 1) (by omega) (by omega),
    h (o + 2) (by omega) (by omega), h (o + 3) (by omega) (by omega)]

theorem answer_eq_contents {p : PacketDwords} {I : MemoryImage} {vaAddr : UInt64}
    (h : p.StoredIn I vaAddr) {r : MemoryRead} (hr : r.vaAddr = vaAddr)
    (hq : vaAddr.toNat + r.size.toNat < 2 ^ 64) {i : ℕ} (hi : i < r.size.toNat)
    (hp : i < p.bytes.length) : (I.answer r).2 i = p.contents i := by
  rw [MemoryImage.answer, hr, MemoryImage.retrieve, if_pos hq]
  dsimp only
  rw [if_pos hi, h.2 i hp, PacketDwords.contents, List.getD_eq_getElem?_getD]
  rfl

/-- A read of a whole structure at `va`. -/
def wholeRead (va : UInt64) (type : PacketType) : MemoryRead :=
  ⟨va, UInt64.ofNat type.bytes, type.bytes⟩

theorem toNat_size_wholeRead (va : UInt64) (type : PacketType) :
    (wholeRead va type).size.toNat = type.bytes := by
  cases type <;> rfl

/-- `OPCODE`, as the first read of a `CP_DRAW_INDIRECT_MULTI` gives it. -/
def readMultiOpcode (I : MemoryImage) (va : UInt64) : ℕ :=
  Pm4Packet.multiOpcode (I.answer (wholeRead va .CP_DRAW_INDIRECT_MULTI_INDIRECT_OP_NORMAL)).2

theorem readMultiOpcode_of_lt {p : PacketDwords} {I : MemoryImage} {vaAddr : UInt64}
    (h : p.StoredIn I vaAddr) (hcount : 6 ≤ p.header.type7Count.toNat)
    (hq : vaAddr.toNat + 28 < 2 ^ 64) : readMultiOpcode I vaAddr = p.multiOpcode := by
  have hsize := toNat_size_wholeRead vaAddr .CP_DRAW_INDIRECT_MULTI_INDIRECT_OP_NORMAL
  rw [PacketType.bytes] at hsize
  have hu32 : (I.answer (wholeRead vaAddr .CP_DRAW_INDIRECT_MULTI_INDIRECT_OP_NORMAL)).2.u32 8 =
      p.contents.u32 8 := by
    apply u32_congr
    intro i hlo hhi
    have hlength := p.length_bytes
    exact answer_eq_contents h rfl (by rw [hsize]; exact hq) (by rw [hsize]; omega) (by omega)
  exact congrArg (fun dword => bitsOf dword 0 4) hu32

theorem readMultiOpcode_of_ge {I : MemoryImage} {vaAddr : UInt64}
    (hq : ¬ vaAddr.toNat + 28 < 2 ^ 64) : readMultiOpcode I vaAddr = 0 := by
  have hsize := toNat_size_wholeRead vaAddr .CP_DRAW_INDIRECT_MULTI_INDIRECT_OP_NORMAL
  rw [PacketType.bytes] at hsize
  rw [readMultiOpcode, MemoryImage.answer, MemoryImage.retrieve,
    if_neg (by rw [hsize]; exact hq)]
  rfl

/-! ## Readers that stay inside -/

section Inside

open Query

variable {p : PacketDwords} {I : MemoryImage} {vaAddr : UInt64}

/-- All reads stay inside the packet. -/
abbrev StaysInside (p : PacketDwords) (vaAddr : UInt64) (I : MemoryImage) {α : Type}
    (program : PacketRead α) : Prop :=
  AllAsked (fun r => r.Inside vaAddr p.bytes.length) I.answer program

theorem inside_own (type : PacketType) :
    StaysInside p vaAddr I (retrieve vaAddr (ownBytes p.header) type) := by
  have hsize := toNat_ownBytes p.header
  refine allAsked_map.mpr (allAsked_question.mpr ⟨?_, le_rfl, ?_⟩)
  · rw [hsize]
    omega
  · rw [hsize, p.length_bytes]

theorem inside_whole {type : PacketType}
    (h : type.bytes ≤ 4 * (p.header.type7Count.toNat + 1)) :
    StaysInside p vaAddr I (retrieveWhole vaAddr type) := by
  have hsize := toNat_size_wholeRead vaAddr type
  rw [wholeRead] at hsize
  refine allAsked_map.mpr (allAsked_question.mpr ⟨?_, le_rfl, ?_⟩)
  · rw [hsize]
    cases type <;> decide
  · show vaAddr.toNat + _ ≤ _
    rw [hsize, p.length_bytes]
    omega

theorem toNat_add_of_storedIn {k : UInt64} (hI : p.StoredIn I vaAddr)
    (hk : k.toNat < 4 * (p.header.type7Count.toNat + 1)) :
    (vaAddr + k).toNat = vaAddr.toNat + k.toNat := by
  have hend := hI.1
  rw [p.length_bytes] at hend
  rw [UInt64.toNat_add]
  exact Nat.mod_eq_of_lt (by omega)

theorem inside_dword {k : UInt64} {capacity : ℕ} (hI : p.StoredIn I vaAddr)
    (hk : k.toNat + 4 ≤ 4 * (p.header.type7Count.toNat + 1)) :
    MemoryRead.Inside vaAddr p.bytes.length ⟨vaAddr + k, 4, capacity⟩ := by
  have haddr := toNat_add_of_storedIn hI (k := k) (by omega)
  refine ⟨(by decide : 0 < (4 : UInt64).toNat), ?_, ?_⟩
  · show vaAddr.toNat ≤ (vaAddr + k).toNat
    omega
  · show (vaAddr + k).toNat + 4 ≤ _
    rw [haddr, p.length_bytes]
    omega

theorem neededDwords_pos_of_draw {opcode : UInt32} (hdraw : isDrawEventOpcode opcode = true)
    (multiOpcode : ℕ) : 1 ≤ neededDwords opcode multiOpcode := by
  simp only [isDrawEventOpcode, Bool.or_eq_true, decide_eq_true_eq] at hdraw
  obtain ((((rfl | rfl) | rfl) | rfl) | rfl) | rfl := hdraw
  · exact (by decide : 1 ≤ 5)
  · exact le_rfl
  · exact (by decide : 1 ≤ 3)
  · exact (by decide : 1 ≤ 6)
  · show 1 ≤ if multiOpcode = 4 then 9 else if multiOpcode = 6 then 8
      else if multiOpcode = 7 then 11 else 6
    split_ifs <;> decide
  · exact (by decide : 1 ≤ 6)

variable {info : Pm4Info} {t : RegisterTracker}

theorem isDraw_of_getEventType {answer : MemoryRead → Bool × Buffer} {opcode : UInt32}
    (htype : run answer (getEventType info vaAddr t opcode) = some .kDraw) :
    isDrawEventOpcode opcode = true := by
  by_contra hdraw
  simp only [getEventType, run_ite, run_bind, run_pure, if_neg hdraw] at htype
  split_ifs at htype
  · cases htype
  · cases htype
  · obtain ⟨syncType, -, hsync⟩ := Option.map_eq_some_iff.mp htype
    cases syncType <;> cases hsync

variable (h : neededDwords p.header.type7Opcode p.multiOpcode ≤ p.header.type7Count.toNat)

include h

theorem inside_onMarker {α : Type} (setMarker : α → UInt32 → α) (a : α) :
    StaysInside p vaAddr I (onMarker vaAddr p.header setMarker a) := by
  refine .ite (fun hop => ?_) fun _ => allAsked_pure _
  rw [hop] at h
  have hneeded : 1 ≤ p.header.type7Count.toNat := h
  refine (inside_whole ?_).bind (allAsked_pure _)
  rw [PacketType.bytes]
  omega

theorem inside_getSyncType :
    StaysInside p vaAddr I (getSyncType info vaAddr t p.header.type7Opcode) := by
  refine .ite (fun hop => ?_) fun _ => ?_
  · rw [hop] at h
    have hneeded : 4 ≤ p.header.type7Count.toNat := h
    refine (inside_whole ?_).bind (allAsked_pure _)
    rw [PacketType.bytes]
    omega
  · exact .ite (fun _ => allAsked_pure _) fun _ => .ite (fun _ => allAsked_pure _) fun _ =>
      .ite (fun _ => allAsked_pure _) fun _ => allAsked_pure _

theorem inside_isEvent : StaysInside p vaAddr I (isEvent info vaAddr t p.header.type7Opcode) :=
  .ite (fun _ => allAsked_pure _) fun _ => .ite (fun _ => allAsked_pure _) fun _ =>
    (inside_getSyncType h).bind (allAsked_pure _)

theorem inside_getEventType :
    StaysInside p vaAddr I (getEventType info vaAddr t p.header.type7Opcode) :=
  .ite (fun _ => allAsked_pure _) fun _ => .ite (fun _ => allAsked_pure _) fun _ =>
    .ite (fun _ => allAsked_pure _) fun _ => (inside_getSyncType h).bind (allAsked_pure _)

theorem inside_multiString (hI : p.StoredIn I vaAddr)
    (hop : p.header.type7Opcode = CP_DRAW_INDIRECT_MULTI) :
    StaysInside p vaAddr I (multiString vaAddr) := by
  rw [hop] at h
  have hneeded : (if p.multiOpcode = 4 then 9 else if p.multiOpcode = 6 then 8
      else if p.multiOpcode = 7 then 11 else 6) ≤ p.header.type7Count.toNat := h
  have hcount : 6 ≤ p.header.type7Count.toNat := by
    split_ifs at hneeded <;> omega
  have hread : readMultiOpcode I vaAddr = p.multiOpcode ∨ readMultiOpcode I vaAddr = 0 := by
    by_cases hq : vaAddr.toNat + 28 < 2 ^ 64
    · exact .inl (readMultiOpcode_of_lt hI hcount hq)
    · exact .inr (readMultiOpcode_of_ge hq)
  refine (inside_whole ?_).bind ?_
  · rw [PacketType.bytes]
    omega
  · generalize hpacket : run I.answer (retrieveWhole vaAddr
      .CP_DRAW_INDIRECT_MULTI_INDIRECT_OP_NORMAL) = basePacket
    have hbase : basePacket.multiOpcode = p.multiOpcode ∨ basePacket.multiOpcode = 0 :=
      hpacket ▸ hread
    have hwhole : ∀ (type : PacketType) (f : Pm4Packet → String),
        type.bytes ≤ 4 * (p.header.type7Count.toNat + 1) →
        StaysInside p vaAddr I (retrieveWhole vaAddr type >>= fun packet => pure (f packet)) :=
      fun type f hle => (inside_whole hle).bind (allAsked_pure _)
    refine .ite (fun _ => allAsked_pure _) fun _ => .ite (fun hfour => hwhole _ _ ?_) fun _ =>
      .ite (fun hsix => hwhole _ _ ?_) fun _ => .ite (fun hseven => hwhole _ _ ?_) fun _ =>
      allAsked_pure _
    all_goals rw [PacketType.bytes]
    · rw [if_pos (by omega)] at hneeded
      omega
    · rw [if_neg (by omega), if_pos (by omega)] at hneeded
      omega
    · rw [if_neg (by omega), if_neg (by omega), if_pos (by omega)] at hneeded
      omega

theorem inside_getEventString (hI : p.StoredIn I vaAddr) :
    StaysInside p vaAddr I (getEventString info vaAddr p.header t) := by
  have hwhole : ∀ {β : Type} (type : PacketType) (f : Pm4Packet → β) (opcode : UInt32) (n : ℕ),
      p.header.type7Opcode = opcode → n ≤ neededDwords opcode p.multiOpcode →
      type.bytes ≤ 4 * (n + 1) → StaysInside p vaAddr I (f <$> retrieveWhole vaAddr type) := by
    intro β type f opcode n hop hn hle
    rw [hop] at h
    exact allAsked_map.mpr (inside_whole (by omega))
  refine .ite (fun hop => hwhole _ _ _ 5 hop le_rfl le_rfl) fun _ =>
    .ite (fun _ => allAsked_map.mpr (inside_own _)) fun _ =>
    .ite (fun hop => hwhole _ _ _ 3 hop le_rfl le_rfl) fun _ =>
    .ite (fun hop => hwhole _ _ _ 6 hop le_rfl le_rfl) fun _ =>
    .ite (fun hop => allAsked_map.mpr (inside_multiString h hI hop)) fun _ =>
    .ite (fun hop => hwhole _ _ _ 6 hop le_rfl le_rfl) fun _ =>
    .ite (fun hop => hwhole _ _ _ 4 hop le_rfl le_rfl) fun _ =>
    .ite (fun hop => hwhole _ _ _ 4 hop le_rfl le_rfl) fun _ =>
    .ite (fun _ => allAsked_map.mpr (inside_own _)) fun _ =>
    .ite (fun _ => (inside_getSyncType h).bind (allAsked_pure _)) fun _ =>
    .ite (fun _ => allAsked_pure _) fun _ => .ite (fun _ => allAsked_pure _) fun _ =>
    .ite (fun _ => allAsked_pure _) fun _ => allAsked_pure _

theorem inside_getTopology (hI : p.StoredIn I vaAddr)
    (hdraw : isDrawEventOpcode p.header.type7Opcode = true) :
    StaysInside p vaAddr I (getTopology vaAddr p.header) := by
  refine AllAsked.bind (allAsked_question.mpr ?_) (allAsked_pure _)
  rw [primDwordAddr]
  by_cases hop : p.header.type7Opcode = CP_DRAW_INDX
  · rw [hop] at h
    have hneeded : 5 ≤ p.header.type7Count.toNat := h
    rw [if_pos hop, UInt64.add_assoc]
    exact inside_dword hI (by show 8 + 4 ≤ _; omega)
  · have hneeded := neededDwords_pos_of_draw hdraw p.multiOpcode
    rw [if_neg hop]
    exact inside_dword hI (by show 4 + 4 ≤ _; omega)

theorem inside_describe (hI : p.StoredIn I vaAddr) :
    StaysInside p vaAddr I (describe info vaAddr p.header t) := by
  refine (inside_getEventType h).bind ((inside_getEventString h hI).bind (AllAsked.bind ?_ ?_))
  · exact .ite (fun _ => allAsked_pure _) fun _ => (inside_own _).bind (allAsked_pure _)
  · refine .ite (fun htype => ?_) fun _ => allAsked_pure _
    refine AllAsked.bind ?_ ((inside_getTopology h hI ?_).bind (allAsked_pure _))
    · refine .ite (fun hop => ?_) fun _ =>
        .ite (fun _ => allAsked_map.mpr (inside_own _)) fun _ => allAsked_pure _
      rw [hop] at h
      have hneeded : 5 ≤ p.header.type7Count.toNat := h
      refine allAsked_map.mpr (inside_whole ?_)
      rw [PacketType.bytes]
      omega
    · exact isDraw_of_getEventType htype

theorem inside_interpret (hI : p.StoredIn I vaAddr) (renderMode : RenderModeType) :
    StaysInside p vaAddr I (interpret info vaAddr p.header t renderMode) := by
  refine (inside_onMarker h _ _).bind ((inside_onMarker h _ _).bind ((inside_isEvent h).bind ?_))
  exact .ite (fun _ => (inside_describe h hI).bind (allAsked_pure _)) fun _ => allAsked_pure _

end Inside

/-! ## Readers that go past the packet -/

section Past

open Query

variable {answer : MemoryRead → Bool × Buffer} {info : Pm4Info} {va : UInt64} {header : Pm4Header}
  {t : RegisterTracker} {renderMode : RenderModeType} {r : MemoryRead}

theorem asked_whole {α : Type} (f : Pm4Packet → α) (type : PacketType) :
    asked answer (f <$> retrieveWhole va type) = [wholeRead va type] := by
  rw [asked_map, retrieveWhole, retrieve, asked_map]
  rfl

theorem mem_interpret_of_marker
    (h : r ∈ asked answer (onMarker va header RegisterTracker.setMarker t)) :
    r ∈ asked answer (interpret info va header t renderMode) := by
  rw [interpret, asked_bind, List.mem_append]
  exact .inl h

theorem mem_interpret_of_isEvent
    (h : r ∈ asked answer (isEvent info va t header.type7Opcode)) :
    r ∈ asked answer (interpret info va header t renderMode) := by
  rw [interpret, asked_bind, List.mem_append, asked_bind, List.mem_append, asked_bind,
    List.mem_append]
  exact .inr (.inr (.inl h))

theorem mem_interpret_of_describe (hdraw : isDrawDispatchEventOpcode header.type7Opcode = true)
    (h : r ∈ asked answer (describe info va header t)) :
    r ∈ asked answer (interpret info va header t renderMode) := by
  have hevent : run answer (isEvent info va t header.type7Opcode) = some true := by
    rw [isEvent, if_pos hdraw]
    rfl
  rw [interpret, asked_bind, List.mem_append, asked_bind, List.mem_append, asked_bind,
    List.mem_append, hevent, if_pos rfl, asked_bind, List.mem_append]
  exact .inr (.inr (.inr (.inl h)))

theorem mem_interpret_of_string (hdraw : isDrawDispatchEventOpcode header.type7Opcode = true)
    (h : r ∈ asked answer (getEventString info va header t)) :
    r ∈ asked answer (interpret info va header t renderMode) := by
  apply mem_interpret_of_describe hdraw
  rw [describe, asked_bind, List.mem_append, asked_bind, List.mem_append]
  exact .inr (.inl h)

theorem mem_interpret_of_topology (hdraw : isDrawEventOpcode header.type7Opcode = true)
    (h : r ∈ asked answer (getTopology va header)) :
    r ∈ asked answer (interpret info va header t renderMode) := by
  have htype : run answer (getEventType info va t header.type7Opcode) = some .kDraw := by
    rw [getEventType, if_pos hdraw]
    rfl
  apply mem_interpret_of_describe (by rw [isDrawDispatchEventOpcode, hdraw, Bool.true_or])
  rw [describe, asked_bind, List.mem_append, asked_bind, List.mem_append, asked_bind,
    List.mem_append, htype, if_pos rfl, asked_bind, List.mem_append, asked_bind, List.mem_append]
  exact .inr (.inr (.inr (.inr (.inl h))))

end Past

/-- A read that ends past a packet at address 0. -/
def MemoryRead.GoesPast (p : PacketDwords) (r : MemoryRead) : Prop :=
  p.bytes.length < r.vaAddr.toNat + r.size.toNat ∧ r.vaAddr.toNat + r.size.toNat < 2 ^ 64 ∧
    0 < r.size.toNat

theorem past_whole {p : PacketDwords} {type : PacketType}
    (h : 4 * (p.header.type7Count.toNat + 1) < type.bytes) : (wholeRead 0 type).GoesPast p := by
  have hbytes : type.bytes < 2 ^ 63 := by cases type <;> decide
  have haddr : (wholeRead 0 type).vaAddr.toNat = 0 := rfl
  rw [MemoryRead.GoesPast, toNat_size_wholeRead, p.length_bytes, haddr]
  omega

theorem asked_multiString (I : MemoryImage) (va : UInt64) :
    (multiString va).asked I.answer =
      wholeRead va .CP_DRAW_INDIRECT_MULTI_INDIRECT_OP_NORMAL ::
        if readMultiOpcode I va = 2 then []
        else if readMultiOpcode I va = 4 then [wholeRead va .CP_DRAW_INDIRECT_MULTI_INDEXED]
        else if readMultiOpcode I va = 6 then [wholeRead va .CP_DRAW_INDIRECT_MULTI_INDIRECT]
        else if readMultiOpcode I va = 7 then
          [wholeRead va .CP_DRAW_INDIRECT_MULTI_INDIRECT_INDEXED]
        else [] := by
  simp only [multiString, Query.asked_bind, Query.asked_ite, Query.asked_pure, List.append_nil]
  rfl

theorem multiString_past {p : PacketDwords}
    (h : p.header.type7Count.toNat < neededDwords CP_DRAW_INDIRECT_MULTI p.multiOpcode) :
    ∃ type, wholeRead 0 type ∈ (multiString 0).asked p.surrounded.answer ∧
      4 * (p.header.type7Count.toNat + 1) < type.bytes := by
  have hneeded : p.header.type7Count.toNat < if p.multiOpcode = 4 then 9
      else if p.multiOpcode = 6 then 8 else if p.multiOpcode = 7 then 11 else 6 := h
  rw [asked_multiString]
  by_cases hbase : p.header.type7Count.toNat < 6
  · refine ⟨.CP_DRAW_INDIRECT_MULTI_INDIRECT_OP_NORMAL, List.mem_cons_self, ?_⟩
    rw [PacketType.bytes]
    omega
  · have hread : readMultiOpcode p.surrounded 0 = p.multiOpcode :=
      readMultiOpcode_of_lt p.storedIn_surrounded (not_lt.mp hbase) (by decide)
    rw [hread]
    split_ifs at hneeded with hfour hsix hseven
    · refine ⟨.CP_DRAW_INDIRECT_MULTI_INDEXED, by simp [hfour], ?_⟩
      rw [PacketType.bytes]
      omega
    · refine ⟨.CP_DRAW_INDIRECT_MULTI_INDIRECT, by simp [hsix], ?_⟩
      rw [PacketType.bytes]
      omega
    · refine ⟨.CP_DRAW_INDIRECT_MULTI_INDIRECT_INDEXED, by simp [hseven], ?_⟩
      rw [PacketType.bytes]
      omega
    · omega

section TooShort

variable {p : PacketDwords} (info : Pm4Info) (t : RegisterTracker) (renderMode : RenderModeType)

theorem exists_past_of_string {type : PacketType}
    (hdraw : isDrawDispatchEventOpcode p.header.type7Opcode = true)
    (hmem : wholeRead 0 type ∈ (getEventString info 0 p.header t).asked p.surrounded.answer)
    (hlt : 4 * (p.header.type7Count.toNat + 1) < type.bytes) :
    ∃ r ∈ (interpret info 0 p.header t renderMode).asked p.surrounded.answer, r.GoesPast p :=
  ⟨_, mem_interpret_of_string hdraw hmem, past_whole hlt⟩

theorem exists_past_of_whole {type : PacketType} {opcode : UInt32} {n : ℕ}
    (hop : p.header.type7Opcode = opcode) (hdraw : isDrawDispatchEventOpcode opcode = true)
    (hasked : ∀ header, header.type7Opcode = opcode →
      (getEventString info 0 header t).asked p.surrounded.answer = [wholeRead 0 type])
    (hneeded : neededDwords opcode p.multiOpcode = n) (hbytes : type.bytes = 4 * (n + 1))
    (h : p.header.type7Count.toNat < neededDwords p.header.type7Opcode p.multiOpcode) :
    ∃ r ∈ (interpret info 0 p.header t renderMode).asked p.surrounded.answer, r.GoesPast p := by
  rw [hop, hneeded] at h
  apply exists_past_of_string info t renderMode (hop ▸ hdraw)
  · rw [hasked _ hop]
    exact List.mem_cons_self
  · omega

theorem exists_past
    (h : p.header.type7Count.toNat < neededDwords p.header.type7Opcode p.multiOpcode) :
    ∃ r ∈ (interpret info 0 p.header t renderMode).asked p.surrounded.answer, r.GoesPast p := by
  by_cases hmarker : p.header.type7Opcode = CP_SET_MARKER
  · rw [hmarker] at h
    have hlt : p.header.type7Count.toNat < 1 := h
    refine ⟨wholeRead 0 .CP_SET_MARKER, mem_interpret_of_marker ?_, past_whole ?_⟩
    · rw [onMarker, if_pos hmarker]
      exact List.mem_cons_self
    · rw [PacketType.bytes]
      omega
  by_cases hevent : p.header.type7Opcode = CP_EVENT_WRITE7
  · rw [hevent] at h
    have hlt : p.header.type7Count.toNat < 4 := h
    refine ⟨wholeRead 0 .CP_EVENT_WRITE, mem_interpret_of_isEvent ?_, past_whole ?_⟩
    · rw [hevent]
      exact List.mem_cons_self
    · rw [PacketType.bytes]
      omega
  by_cases hoffset : p.header.type7Opcode = CP_DRAW_INDX_OFFSET
  · rw [hoffset] at h
    have hlt : p.header.type7Count.toNat < 1 := h
    have haddr : primDwordAddr 0 p.header = 4 := by
      rw [primDwordAddr, if_neg (by rw [hoffset]; decide)]
      rfl
    refine ⟨⟨4, 4, 4⟩, mem_interpret_of_topology (by rw [hoffset]; rfl) ?_, ?_⟩
    · rw [getTopology, haddr]
      exact List.mem_cons_self
    · refine ⟨?_, by decide, by decide⟩
      show p.bytes.length < 8
      rw [p.length_bytes]
      omega
  by_cases hmulti : p.header.type7Opcode = CP_DRAW_INDIRECT_MULTI
  · rw [hmulti] at h
    obtain ⟨type, hmem, hlt⟩ := multiString_past h
    apply exists_past_of_string info t renderMode (by rw [hmulti]; rfl) _ hlt
    have hasked : (getEventString info 0 p.header t).asked p.surrounded.answer =
        (multiString 0).asked p.surrounded.answer := by
      simp only [getEventString, hmulti]
      exact Query.asked_map ..
    rw [hasked]
    exact hmem
  -- the others are read as a whole
  have hwhole := fun {type opcode n} => @exists_past_of_whole p info t renderMode type opcode n
  by_cases hindx : p.header.type7Opcode = CP_DRAW_INDX
  · exact hwhole hindx rfl (fun header hop => by
      simp only [getEventString, hop]; exact asked_whole ..) rfl rfl h
  by_cases hindirect : p.header.type7Opcode = CP_DRAW_INDIRECT
  · exact hwhole hindirect rfl (fun header hop => by
      simp only [getEventString, hop]; exact asked_whole ..) rfl rfl h
  by_cases hindxIndirect : p.header.type7Opcode = CP_DRAW_INDX_INDIRECT
  · exact hwhole hindxIndirect rfl (fun header hop => by
      simp only [getEventString, hop]; exact asked_whole ..) rfl rfl h
  by_cases hauto : p.header.type7Opcode = CP_DRAW_AUTO
  · exact hwhole hauto rfl (fun header hop => by
      simp only [getEventString, hop]; exact asked_whole ..) rfl rfl h
  by_cases hcsIndirect : p.header.type7Opcode = CP_EXEC_CS_INDIRECT
  · exact hwhole hcsIndirect rfl (fun header hop => by
      simp only [getEventString, hop]; exact asked_whole ..) rfl rfl h
  by_cases hcs : p.header.type7Opcode = CP_EXEC_CS
  · exact hwhole hcs rfl (fun header hop => by
      simp only [getEventString, hop]; exact asked_whole ..) rfl rfl h
  · simp [neededDwords, hmarker, hevent, hoffset, hmulti, hindx, hindirect, hindxIndirect, hauto,
      hcsIndirect, hcs] at h

end TooShort

theorem not_local_of_lt {p : PacketDwords}
    (h : p.header.type7Count.toNat < neededDwords p.header.type7Opcode p.multiOpcode) :
    ¬ Local p := by
  intro hlocal
  obtain ⟨r, hr, hpast, hq, hs⟩ := exists_past ⟨fun _ => none, fun _ => 0⟩ {} .kUnknown h
  exact p.answer_ne hq hpast hs (answer_eq_of_local hlocal _ _ _ r hr)

/-- **A packet is local exactly when it has the payload that its readers ask for.** -/
theorem local_iff (p : PacketDwords) :
    Local p ↔ neededDwords p.header.type7Opcode p.multiOpcode ≤ p.header.type7Count.toNat := by
  constructor
  · intro hlocal
    by_contra hlt
    exact not_local_of_lt (not_le.mp hlt) hlocal
  · intro hneeded
    exact local_of_inside fun info t renderMode vaAddr I hI =>
      inside_interpret hneeded hI renderMode

/-- **Memory managers.** What a finalized memory manager gives of a packet with enough payload is
what its image gives, whatever was looked up before. -/
theorem interpret_manager {p : PacketDwords} {m : MemoryManager} {submitIndex : UInt32}
    {vaAddr : UInt64} (hm : m.Finalized) (hl : m.LastReachable)
    (h : neededDwords p.header.type7Opcode p.multiOpcode ≤ p.header.type7Count.toNat)
    (hstored : p.StoredIn (m.image submitIndex) vaAddr) (info : Pm4Info) (t : RegisterTracker)
    (renderMode : RenderModeType) :
    (interpret info vaAddr p.header t renderMode).outcome Prod.fst
        (m.toInterface.answer submitIndex) =
      (interpret info vaAddr p.header t renderMode).outcome Prod.fst
        (m.image submitIndex).answer := by
  refine Query.outcome_congr Prod.fst _ fun r hr => ?_
  have hinside : r.Inside vaAddr p.bytes.length := inside_interpret h hstored renderMode r hr
  exact (toInterface_image hm hl Buffer.zero submitIndex r.vaAddr
    (UInt64.lt_iff_toNat_lt.mpr hinside.1)).symm

/-- A `CP_EVENT_WRITE` of one dword, such as a flush. -/
def shortEventWrite : PacketDwords := ⟨⟨0x70460001⟩, [30], by decide, by decide⟩

/-- The reader of its event asks for the dwords after it. -/
theorem shortEventWrite_not_local : shortEventWrite.header.isValid = true ∧
    ¬ Local shortEventWrite :=
  ⟨by decide, not_local_of_lt (by decide +kernel)⟩

end Dive
