import Dive.Pm4.Tracker

/-!
# Register writes of a packet

* `Exact`: the packet's own dwords, to exactly the registers it names, in the planes of the mask.
* `Contained`: the registers are there, and no 64-bit register reaches past the payload.
* **`exact_iff_contained`**, for every tracker, table, memory and packet.
* `masksOnStack_reachable`: the emulator pops only masks that it has pushed.
* **`storesExactly_iff`**, for the packets of a submit; **`lastDword_notExact`**: a 64-bit register
  as the last of a type 4 packet.
-/

namespace Dive

namespace CapturedPacket

variable (p : CapturedPacket) (table : RegTable)

/-- The address/value pairs of a `CP_CONTEXT_REG_BUNCH` packet. -/
def pairs : List (UInt32 × UInt32) :=
  (List.range (p.header.type7Count.toNat / 2)).map fun k => p.regPair (2 * k)

/-- The dwords of the payload. -/
def payloadSize : ℕ :=
  if p.header.isOpcode CP_CONTEXT_REG_BUNCH then p.header.type7Count.toNat
  else p.header.type4Count.toNat

/-- What the packet says a register becomes. -/
def named (r : UInt32) : Option UInt32 :=
  if p.header.isOpcode CP_CONTEXT_REG_BUNCH then lastValue p.pairs r
  else if p.header.type = 4 then
    if p.header.type4Offset ≤ r ∧
        r.toNat < p.header.type4Offset.toNat + p.header.type4Count.toNat then
      some (p.payloadDword (r - p.header.type4Offset).toNat)
    else none
  else none

/-- The registers of the enabled planes become what the packet says, all else stays. -/
structure Stores (t t' : RegisterTracker) : Prop where
  reg : ∀ plane r, t'.reg plane r =
    if t.enables plane then (p.named r).getD (t.reg plane r) else t.reg plane r
  regIsSet : ∀ plane r, t'.regIsSet plane r =
    (t.enables plane && (p.named r).isSome || t.regIsSet plane r)
  masks : t'.toEmulateStateTracker = t.toEmulateStateTracker
  mode : p.header.isOpcode CP_SET_MARKER = false → t'.shaderEnableBit = t.shaderEnableBit

/-- **The packet is stored as it is**, and from its own dwords, also under an enable mask of 0, where
nothing is stored. -/
structure Exact (t : RegisterTracker) : Prop where
  stores : ∃ t', t.onPacket table p = some t' ∧ p.Stores t t'
  own : ∀ w ∈ p.regWrites table, w.dword < p.payloadSize

/-- From `dword` on, `n` dwords are whole registers. -/
def WholeRegs (dword : ℕ) : ℕ → Prop
  | 0 => True
  | 1 => table.is64Bit (p.header.type4Offset + UInt32.ofNat dword) = false
  | n + 2 =>
    if table.is64Bit (p.header.type4Offset + UInt32.ofNat dword) then WholeRegs (dword + 2) n
    else WholeRegs (dword + 1) (n + 1)

/-- The pair at `dword` is the low half of a register whose high half comes next. -/
def Halves (dword : ℕ) : Prop :=
  table.is64Bit (p.regPair dword).1 = true ∧ (p.regPair (dword + 2)).1 = (p.regPair dword).1 + 1

instance (dword : ℕ) : Decidable (p.Halves table dword) := by
  unfold Halves
  infer_instance

/-- From `dword` on, `n` pairs are whole registers. -/
def WholePairs (dword : ℕ) : ℕ → Prop
  | 0 => True
  | 1 => ¬ p.Halves table dword
  | n + 2 =>
    if p.Halves table dword then WholePairs (dword + 4) n else WholePairs (dword + 2) (n + 1)

/-- The registers are there, and the packet ends with a whole one. -/
def Contained : Prop :=
  if p.header.isOpcode CP_CONTEXT_REG_BUNCH then
    p.header.type7Count.toNat % 2 = 0 ∧ (∀ pair ∈ p.pairs, pair.1.toNat < kNumRegs) ∧
      p.WholePairs table 0 (p.header.type7Count.toNat / 2)
  else if p.header.type = 4 then
    (∀ k < p.header.type4Count.toNat, p.header.type4Offset.toNat + k < kNumRegs) ∧
      p.WholeRegs table 0 p.header.type4Count.toNat
  else True

variable {p table}

/-! ## Type 4 -/

/-- One register of a type 4 packet. -/
def type4Write (p : CapturedPacket) (k : ℕ) : RegWrite :=
  ⟨p.header.type4Offset + UInt32.ofNat k, k, p.payloadDword k⟩

theorem type4Writes_single {dword : ℕ} (h : dword < p.header.type4Count.toNat)
    (h64 : table.is64Bit (p.header.type4Offset + UInt32.ofNat dword) = false) :
    p.type4Writes table dword = p.type4Write dword :: p.type4Writes table (dword + 1) := by
  rw [type4Writes, if_pos h]
  simp [h64, type4Write]

theorem type4Writes_double {dword : ℕ} (h : dword < p.header.type4Count.toNat)
    (h64 : table.is64Bit (p.header.type4Offset + UInt32.ofNat dword) = true) :
    p.type4Writes table dword =
      p.type4Write dword :: p.type4Write (dword + 1) :: p.type4Writes table (dword + 2) := by
  rw [type4Writes, if_pos h]
  simp [h64, type4Write, List.range_succ, UInt32.add_assoc]

theorem type4Writes_end {dword : ℕ} (h : p.header.type4Count.toNat ≤ dword) :
    p.type4Writes table dword = [] := by
  rw [type4Writes, if_neg (not_lt.mpr h)]

theorem type4Writes_of_whole : ∀ (n dword : ℕ), dword + n = p.header.type4Count.toNat →
    p.WholeRegs table dword n →
    p.type4Writes table dword = (List.range' dword n).map p.type4Write
  | 0, dword, hn, _ => type4Writes_end (by omega)
  | 1, dword, hn, h => by
    rw [type4Writes_single (by omega) h, type4Writes_end (by omega)]
    rfl
  | n + 2, dword, hn, h => by
    rw [WholeRegs] at h
    split_ifs at h with h64
    · rw [type4Writes_double (by omega) h64, type4Writes_of_whole n (dword + 2) (by omega) h]
      rfl
    · rw [type4Writes_single (by omega) (by simpa using h64),
        type4Writes_of_whole (n + 1) (dword + 1) (by omega) h]
      rfl

theorem type4Writes_past : ∀ (n dword : ℕ), dword + n = p.header.type4Count.toNat →
    ¬ p.WholeRegs table dword n →
    ∃ w ∈ p.type4Writes table dword, p.header.type4Count.toNat ≤ w.dword
  | 0, _, _, h => absurd trivial h
  | 1, dword, hn, h => by
    rw [type4Writes_double (by omega) (by simpa [WholeRegs] using h)]
    exact ⟨p.type4Write (dword + 1), by simp, by simp [type4Write]; omega⟩
  | n + 2, dword, hn, h => by
    rw [WholeRegs] at h
    split_ifs at h with h64
    · obtain ⟨w, hw, hpast⟩ := type4Writes_past n (dword + 2) (by omega) h
      rw [type4Writes_double (by omega) h64]
      exact ⟨w, by simp [hw], hpast⟩
    · obtain ⟨w, hw, hpast⟩ := type4Writes_past (n + 1) (dword + 1) (by omega) h
      rw [type4Writes_single (by omega) (by simpa using h64)]
      exact ⟨w, by simp [hw], hpast⟩

theorem bits_le (h : Pm4Header) (low width : UInt32) :
    (h.bits low width).toNat ≤ ((1 <<< width : UInt32) - 1).toNat := by
  rw [Pm4Header.bits, UInt32.toNat_and]
  exact Nat.and_le_right

theorem type4Offset_add {k : ℕ} (h : k < p.header.type4Count.toNat) :
    (p.header.type4Offset + UInt32.ofNat k).toNat = p.header.type4Offset.toNat + k := by
  have hcount : p.header.type4Count.toNat ≤ 127 := bits_le p.header 0 7
  have hoffset : p.header.type4Offset.toNat ≤ 524287 := bits_le p.header 8 19
  rw [UInt32.toNat_add, UInt32.toNat_ofNat']
  omega

theorem lastValue_type4 (r : UInt32) : ∀ n ≤ p.header.type4Count.toNat,
    lastValue (((List.range n).map p.type4Write).map RegWrite.pair) r =
      if p.header.type4Offset ≤ r ∧ r.toNat < p.header.type4Offset.toNat + n then
        some (p.payloadDword (r - p.header.type4Offset).toNat)
      else none
  | 0, _ => by
    rw [if_neg]
    · rfl
    · rintro ⟨hle, hlt⟩
      rw [UInt32.le_iff_toNat_le] at hle
      omega
  | n + 1, hn => by
    have hadd := type4Offset_add (p := p) (k := n) (by omega)
    rw [List.range_succ, List.map_append, List.map_append, List.map_singleton, List.map_singleton,
      lastValue_concat, lastValue_type4 r n (by omega)]
    by_cases hr : (RegWrite.pair (p.type4Write n)).1 = r
    · have hsub : (r - p.header.type4Offset).toNat = n := by
        rw [← hr]
        show (p.header.type4Offset + UInt32.ofNat n - p.header.type4Offset).toNat = n
        rw [UInt32.toNat_sub_of_le _ _ (by rw [UInt32.le_iff_toNat_le, hadd]; omega), hadd]
        omega
      have hnat : r.toNat = p.header.type4Offset.toNat + n := by
        rw [← hr]
        exact hadd
      rw [if_pos hr, if_pos ⟨by rw [UInt32.le_iff_toNat_le]; omega, by omega⟩, hsub]
      rfl
    · have hne : r.toNat ≠ p.header.type4Offset.toNat + n := fun h =>
        hr (UInt32.toNat_inj.mp (hadd.trans h.symm))
      rw [if_neg hr]
      congr 1
      simp only [eq_iff_iff, and_congr_right_iff]
      omega

/-! ## Register bunches -/

/-- One pair of a bunch. -/
def bunchWrite (p : CapturedPacket) (dword : ℕ) : RegWrite :=
  ⟨(p.regPair dword).1, dword + 1, (p.regPair dword).2⟩

theorem bunchWrites_single {dword : ℕ} (h : dword < p.header.type7Count.toNat)
    (hhalves : ¬ p.Halves table dword) :
    p.bunchWrites table dword = p.bunchWrite dword :: p.bunchWrites table (dword + 2) := by
  rw [bunchWrites, if_pos h]
  simp only [Halves] at hhalves
  simp [hhalves, bunchWrite]

theorem bunchWrites_double {dword : ℕ} (h : dword < p.header.type7Count.toNat)
    (hhalves : p.Halves table dword) :
    p.bunchWrites table dword =
      p.bunchWrite dword :: p.bunchWrite (dword + 2) :: p.bunchWrites table (dword + 4) := by
  rw [bunchWrites, if_pos h]
  simp [hhalves.1, hhalves.2, bunchWrite]

theorem bunchWrites_end {dword : ℕ} (h : p.header.type7Count.toNat ≤ dword) :
    p.bunchWrites table dword = [] := by
  rw [bunchWrites, if_neg (not_lt.mpr h)]

theorem bunchWrites_of_whole : ∀ (n k : ℕ), 2 * (k + n) = p.header.type7Count.toNat →
    p.WholePairs table (2 * k) n →
    p.bunchWrites table (2 * k) = (List.range' k n).map fun k => p.bunchWrite (2 * k)
  | 0, k, hn, _ => bunchWrites_end (by omega)
  | 1, k, hn, h => by
    rw [bunchWrites_single (by omega) h, bunchWrites_end (by omega)]
    rfl
  | n + 2, k, hn, h => by
    rw [WholePairs] at h
    split_ifs at h with hhalves
    · rw [bunchWrites_double (by omega) hhalves, show 2 * k + 4 = 2 * (k + 2) by omega,
        bunchWrites_of_whole n (k + 2) (by omega) h]
      rfl
    · rw [bunchWrites_single (by omega) hhalves, show 2 * k + 2 = 2 * (k + 1) by omega,
        bunchWrites_of_whole (n + 1) (k + 1) (by omega) h]
      rfl

theorem bunchWrites_past : ∀ (n dword : ℕ), dword + 2 * n = p.header.type7Count.toNat →
    ¬ p.WholePairs table dword n →
    ∃ w ∈ p.bunchWrites table dword, p.header.type7Count.toNat ≤ w.dword
  | 0, _, _, h => absurd trivial h
  | 1, dword, hn, h => by
    rw [bunchWrites_double (by omega) (not_not.mp h)]
    exact ⟨p.bunchWrite (dword + 2), by simp, by simp [bunchWrite]; omega⟩
  | n + 2, dword, hn, h => by
    rw [WholePairs] at h
    split_ifs at h with hhalves
    · obtain ⟨w, hw, hpast⟩ := bunchWrites_past n (dword + 4) (by omega) h
      rw [bunchWrites_double (by omega) hhalves]
      exact ⟨w, by simp [hw], hpast⟩
    · obtain ⟨w, hw, hpast⟩ := bunchWrites_past (n + 1) (dword + 2) (by omega) h
      rw [bunchWrites_single (by omega) hhalves]
      exact ⟨w, by simp [hw], hpast⟩

theorem bunchWrites_odd (n dword : ℕ) (hn : dword + 2 * n + 1 = p.header.type7Count.toNat) :
    ∃ w ∈ p.bunchWrites table dword, p.header.type7Count.toNat ≤ w.dword := by
  induction n using Nat.strong_induction_on generalizing dword with
  | _ n ih =>
    by_cases hhalves : p.Halves table dword
    · rw [bunchWrites_double (by omega) hhalves]
      match n, hn with
      | 0, hn => exact ⟨p.bunchWrite dword, by simp, by simp [bunchWrite]; omega⟩
      | 1, hn => exact ⟨p.bunchWrite (dword + 2), by simp, by simp [bunchWrite]; omega⟩
      | n + 2, hn =>
        obtain ⟨w, hw, hpast⟩ := ih n (by omega) (dword + 4) (by omega)
        exact ⟨w, by simp [hw], hpast⟩
    · rw [bunchWrites_single (by omega) hhalves]
      match n, hn with
      | 0, hn => exact ⟨p.bunchWrite dword, by simp, by simp [bunchWrite]; omega⟩
      | n + 1, hn =>
        obtain ⟨w, hw, hpast⟩ := ih n (by omega) (dword + 2) (by omega)
        exact ⟨w, by simp [hw], hpast⟩

theorem map_bunchWrite (p : CapturedPacket) (n : ℕ) :
    ((List.range' 0 n).map fun k => p.bunchWrite (2 * k)).map RegWrite.pair =
      (List.range n).map fun k => p.regPair (2 * k) := by
  rw [List.map_map, List.range_eq_range']
  rfl

/-! ## Packets -/

/-- The tracker after the marker of a packet. -/
def marked (p : CapturedPacket) (t : RegisterTracker) : RegisterTracker :=
  if p.header.isOpcode CP_SET_MARKER then t.setMarker p.markerDword else t

theorem marked_eq (p : CapturedPacket) (t : RegisterTracker) :
    ∃ mode, p.marked t = { t with shaderEnableBit := mode } ∧
      (p.header.isOpcode CP_SET_MARKER = false → mode = t.shaderEnableBit) := by
  unfold marked
  split_ifs with h
  · exact ⟨_, t.setMarker_eq p.markerDword, fun hno => absurd h (by simp [hno])⟩
  · exact ⟨_, rfl, fun _ => rfl⟩

theorem onPacket_eq (t : RegisterTracker) : t.onPacket table p =
    if ∀ w ∈ p.regWrites table, w.offset.toNat < kNumRegs then
      some ((p.marked t).store ((p.regWrites table).map RegWrite.pair))
    else none :=
  RegisterTracker.setRegs_eq _ _

theorem stores_store {ws : List RegWrite}
    (hws : ∀ r, lastValue (ws.map RegWrite.pair) r = p.named r) (t : RegisterTracker) :
    p.Stores t ((p.marked t).store (ws.map RegWrite.pair)) := by
  obtain ⟨mode, hmarked, hmode⟩ := p.marked_eq t
  rw [hmarked]
  refine ⟨fun plane r => ?_, fun plane r => ?_, rfl, hmode⟩
  · rw [← hws r]
    rfl
  · rw [← hws r]
    rfl

theorem regWrites_bunch (hb : p.header.isOpcode CP_CONTEXT_REG_BUNCH = true) :
    p.regWrites table = p.bunchWrites table 0 := if_pos hb

theorem regWrites_type4 (hb : p.header.isOpcode CP_CONTEXT_REG_BUNCH = false)
    (h4 : p.header.type = 4) : p.regWrites table = p.type4Writes table 0 := by
  rw [regWrites, hb, if_neg Bool.false_ne_true, if_pos h4]

theorem exact_iff_of_bunch (hb : p.header.isOpcode CP_CONTEXT_REG_BUNCH = true)
    (hodd : p.header.type7Count.toNat % 2 = 0)
    (hwhole : p.WholePairs table 0 (p.header.type7Count.toNat / 2)) (t : RegisterTracker) :
    p.Exact table t ↔ ∀ pair ∈ p.pairs, pair.1.toNat < kNumRegs := by
  have hwrites : p.regWrites table =
      (List.range' 0 (p.header.type7Count.toNat / 2)).map fun k => p.bunchWrite (2 * k) := by
    rw [regWrites_bunch hb]
    exact bunchWrites_of_whole (p.header.type7Count.toNat / 2) 0 (by omega) hwhole
  have hpairs : (p.regWrites table).map RegWrite.pair = p.pairs := by
    rw [hwrites, map_bunchWrite]
    rfl
  have hthere : (∀ w ∈ p.regWrites table, w.offset.toNat < kNumRegs) ↔
      ∀ pair ∈ p.pairs, pair.1.toNat < kNumRegs := by
    rw [← hpairs, List.forall_mem_map]
    rfl
  have hnamed : ∀ r, lastValue ((p.regWrites table).map RegWrite.pair) r = p.named r := by
    intro r
    rw [hpairs, named, if_pos hb]
  constructor
  · rintro ⟨⟨t', ht', -⟩, -⟩
    rw [onPacket_eq] at ht'
    split_ifs at ht' with h
    exact hthere.mp h
  · intro h
    refine ⟨⟨_, by rw [onPacket_eq, if_pos (hthere.mpr h)], stores_store hnamed t⟩, ?_⟩
    intro w hw
    rw [hwrites] at hw
    obtain ⟨k, hk, rfl⟩ := List.mem_map.mp hw
    rw [List.mem_range'_1] at hk
    rw [payloadSize, if_pos hb]
    simp only [bunchWrite]
    omega

theorem exact_iff_of_type4 (hb : p.header.isOpcode CP_CONTEXT_REG_BUNCH = false)
    (h4 : p.header.type = 4) (hwhole : p.WholeRegs table 0 p.header.type4Count.toNat)
    (t : RegisterTracker) :
    p.Exact table t ↔
      ∀ k < p.header.type4Count.toNat, p.header.type4Offset.toNat + k < kNumRegs := by
  have hwrites : p.regWrites table =
      (List.range' 0 p.header.type4Count.toNat).map p.type4Write := by
    rw [regWrites_type4 hb h4]
    exact type4Writes_of_whole p.header.type4Count.toNat 0 (by omega) hwhole
  have hthere : (∀ w ∈ p.regWrites table, w.offset.toNat < kNumRegs) ↔
      ∀ k < p.header.type4Count.toNat, p.header.type4Offset.toNat + k < kNumRegs := by
    rw [hwrites, List.forall_mem_map]
    refine forall_congr' fun k => ?_
    rw [List.mem_range'_1, Nat.zero_add]
    refine ⟨fun h hk => ?_, fun h hk => ?_⟩
    · have := h ⟨Nat.zero_le k, hk⟩
      rwa [type4Write, type4Offset_add hk] at this
    · rw [type4Write, type4Offset_add hk.2]
      exact h hk.2
  have hnamed : ∀ r, lastValue ((p.regWrites table).map RegWrite.pair) r = p.named r := by
    intro r
    rw [hwrites, ← List.range_eq_range', lastValue_type4 r _ le_rfl, named, hb,
      if_neg Bool.false_ne_true, if_pos h4]
  constructor
  · rintro ⟨⟨t', ht', -⟩, -⟩
    rw [onPacket_eq] at ht'
    split_ifs at ht' with h
    exact hthere.mp h
  · intro h
    refine ⟨⟨_, by rw [onPacket_eq, if_pos (hthere.mpr h)], stores_store hnamed t⟩, ?_⟩
    intro w hw
    rw [hwrites] at hw
    obtain ⟨k, hk, rfl⟩ := List.mem_map.mp hw
    rw [List.mem_range'_1] at hk
    rw [payloadSize, hb, if_neg Bool.false_ne_true]
    simp only [type4Write]
    omega

theorem exact_of_other (hb : p.header.isOpcode CP_CONTEXT_REG_BUNCH = false)
    (h4 : p.header.type ≠ 4) (t : RegisterTracker) : p.Exact table t := by
  have hwrites : p.regWrites table = [] := by
    rw [regWrites, hb, if_neg Bool.false_ne_true, if_neg h4]
  have hnamed : ∀ r, lastValue ((p.regWrites table).map RegWrite.pair) r = p.named r := by
    intro r
    rw [hwrites, named, hb, if_neg Bool.false_ne_true, if_neg h4]
    rfl
  refine ⟨⟨_, by rw [onPacket_eq, if_pos (by simp [hwrites])], stores_store hnamed t⟩, ?_⟩
  simp [hwrites]

/-- **Register writes.** A packet is stored as it is, and from its own dwords, exactly when it ends
with a whole register and all of its registers are there. -/
theorem exact_iff_contained (p : CapturedPacket) (table : RegTable) (t : RegisterTracker) :
    p.Exact table t ↔ p.Contained table := by
  unfold Contained
  cases hb : p.header.isOpcode CP_CONTEXT_REG_BUNCH with
  | true =>
    rw [if_pos rfl]
    constructor
    · intro hexact
      have hodd : p.header.type7Count.toNat % 2 = 0 := by
        by_contra hodd
        obtain ⟨w, hw, hpast⟩ := @bunchWrites_odd p table
          (p.header.type7Count.toNat / 2) 0 (by omega)
        have hown := hexact.own w (by rwa [regWrites_bunch hb])
        rw [payloadSize, if_pos hb] at hown
        omega
      have hwhole : p.WholePairs table 0 (p.header.type7Count.toNat / 2) := by
        by_contra hwhole
        obtain ⟨w, hw, hpast⟩ := bunchWrites_past (p.header.type7Count.toNat / 2) 0 (by omega) hwhole
        have hown := hexact.own w (by rwa [regWrites_bunch hb])
        rw [payloadSize, if_pos hb] at hown
        omega
      exact ⟨hodd, (exact_iff_of_bunch hb hodd hwhole t).mp hexact, hwhole⟩
    · rintro ⟨hodd, hthere, hwhole⟩
      exact (exact_iff_of_bunch hb hodd hwhole t).mpr hthere
  | false =>
    rw [if_neg Bool.false_ne_true]
    split_ifs with h4
    · constructor
      · intro hexact
        have hwhole : p.WholeRegs table 0 p.header.type4Count.toNat := by
          by_contra hwhole
          obtain ⟨w, hw, hpast⟩ := type4Writes_past p.header.type4Count.toNat 0 (by omega) hwhole
          have hown := hexact.own w (by rwa [regWrites_type4 hb h4])
          rw [payloadSize, hb, if_neg Bool.false_ne_true] at hown
          omega
        exact ⟨(exact_iff_of_type4 hb h4 hwhole t).mp hexact, hwhole⟩
      · rintro ⟨hthere, hwhole⟩
        exact (exact_iff_of_type4 hb h4 hwhole t).mpr hthere
    · exact ⟨fun _ => trivial, fun _ => exact_of_other hb h4 t⟩

end CapturedPacket

/-! ## Streams of packets -/

namespace Emulation

variable {E : Emulation} {table : RegTable} {ibs : List IndirectBufferInfo} {b c c' : Config}

/-- **Every packet of the calls is stored as it is**, by the tracker that it finds. -/
def StoresExactly (E : Emulation) (table : RegTable) (t : RegisterTracker) (events : List Event) :
    Prop :=
  ∀ es ibIndex va hd es' t', events = es ++ .packet ibIndex va hd :: es' →
    Monitor.run (RegisterTracker.onEvent E table) t es = some t' →
    (E.capturedPacket va hd).Exact table t'

/-- Every packet of the calls is contained. -/
def PacketsContained (E : Emulation) (table : RegTable) (events : List Event) : Prop :=
  ∀ ibIndex va hd, .packet ibIndex va hd ∈ events → (E.capturedPacket va hd).Contained table

theorem onEvent_of_masks {t : RegisterTracker} {e : Event} {masks : EmulateStateTracker}
    (h : t.toEmulateStateTracker.onEvent e = some masks)
    (he : ∀ ibIndex va hd, e = .packet ibIndex va hd → (E.capturedPacket va hd).Exact table t) :
    ∃ t', t.onEvent E table e = some t' ∧ t'.toEmulateStateTracker = masks := by
  cases e with
  | ibStart q ibIndex info ibType =>
    cases h
    exact ⟨_, rfl, rfl⟩
  | ibEnd ibIndex info => exact ⟨_, congrArg (Option.map _) h, rfl⟩
  | packet ibIndex va hd =>
    cases h
    obtain ⟨t', ht', hstores⟩ := (he ibIndex va hd rfl).stores
    exact ⟨t', ht', hstores.masks⟩

theorem storesExactly_cons {t : RegisterTracker} {e : Event} {events : List Event}
    (h : E.StoresExactly table t (e :: events)) {t' : RegisterTracker}
    (ht' : t.onEvent E table e = some t') : E.StoresExactly table t' events := by
  intro es ibIndex va hd es' u hes hu
  refine h (e :: es) ibIndex va hd es' u (by rw [hes, List.cons_append]) ?_
  rw [Monitor.run_cons_of ht']
  exact hu

theorem packetsContained_of_stores : ∀ {events : List Event} {t : RegisterTracker}
    {masks : EmulateStateTracker},
    Monitor.run EmulateStateTracker.onEvent t.toEmulateStateTracker events = some masks →
    E.StoresExactly table t events → E.PacketsContained table events
  | [], _, _, _, _ => fun _ _ _ h => absurd h List.not_mem_nil
  | e :: events, t, masks, hmasks, h => by
    obtain ⟨m, hm, hrun⟩ := Option.bind_eq_some_iff.mp hmasks
    have hexact : ∀ ibIndex va hd, e = .packet ibIndex va hd →
        (E.capturedPacket va hd).Exact table t := fun ibIndex va hd he =>
      h [] ibIndex va hd events t (by rw [he]; rfl) rfl
    obtain ⟨t', ht', rfl⟩ := onEvent_of_masks hm hexact
    have hrest := packetsContained_of_stores hrun (storesExactly_cons h ht')
    intro ibIndex va hd hmem
    cases hmem with
    | head => exact (CapturedPacket.exact_iff_contained _ table t).mp (hexact ibIndex va hd rfl)
    | tail _ hmem => exact hrest ibIndex va hd hmem

/-- The masks of the open levels are on the stack. -/
def MasksOnStack (T : EmulateStateTracker) (c : Config) : Prop :=
  ∃ T', Monitor.run EmulateStateTracker.onEvent T c.trace = some T' ∧
    c.state.callers.length ≤ T'.enableMaskStack.length

theorem MasksOnStack.advances {T : EmulateStateTracker} (h : MasksOnStack T b)
    (ha : Advances E b c') : MasksOnStack T c' := by
  obtain ⟨T', hrun, hle⟩ := h
  cases ha with
  | idle hp => exact ⟨T', hrun, hle⟩
  | call hp hq hl hcb =>
    refine ⟨_, (Monitor.run_append_of hrun).trans rfl, ?_⟩
    exact Nat.succ_le_succ hle
  | chain hp hq hr hend hcb =>
    refine ⟨_, (Monitor.run_append_of hrun).trans rfl, ?_⟩
    exact Nat.le_succ_of_le hle

theorem MasksOnStack.left {T : EmulateStateTracker} {l : IbStack} {ls : List IbStack}
    (h : MasksOnStack T c) (hl : c.state.callers = l :: ls) : MasksOnStack T (left l ls c) := by
  obtain ⟨T', hrun, hle⟩ := h
  rw [hl, List.length_cons] at hle
  obtain ⟨m, ms, hms⟩ := List.exists_cons_of_length_pos (Nat.lt_of_lt_of_le (Nat.succ_pos _) hle)
  refine ⟨⟨m, ms⟩, (Monitor.run_append_of hrun).trans ?_, ?_⟩
  · show (T'.popEnableMask).bind some = _
    rw [EmulateStateTracker.popEnableMask, hms]
    rfl
  · rw [hms] at hle
    exact Nat.le_of_succ_le_succ hle

theorem MasksOnStack.called {T : EmulateStateTracker} (h : MasksOnStack T c) :
    MasksOnStack T (called (packetEvent E c) c) := by
  obtain ⟨T', hrun, hle⟩ := h
  exact ⟨T', (Monitor.run_append_of hrun).trans rfl, hle⟩

theorem MasksOnStack.queuedOn {T : EmulateStateTracker} (h : MasksOnStack T b) (l : IbStack)
    (qs : List QueuedIb) (va : UInt64) : MasksOnStack T (queuedOn l qs va b) := h

theorem MasksOnStack.queues {T : EmulateStateTracker} {resets : Bool} {refs : List QueuedIb}
    {next : UInt64} (h : MasksOnStack T c) (hq : Queues E c resets refs next b) :
    MasksOnStack T b := by
  cases hq with
  | single hp hin hv hop hcb => exact h.called
  | bins hp hop => exact h

theorem MasksOnStack.step {T : EmulateStateTracker} (h : MasksOnStack T c)
    (hstep : StepCase E c c') : MasksOnStack T c' := by
  cases hstep with
  | ring hc ha => exact (h.queuedOn _ _ _).advances ha
  | goOn hp hs hin => exact h
  | leave hp hs hend hl ha => exact (h.left hl).advances ha
  | startBin hp hs hin hv hop hcb => exact h.called
  | lookAhead hp hop => exact h
  | queue hq hroom ha => exact ((h.queues hq).queuedOn _ _ _).advances ha

/-- **The emulator pops only masks that it has pushed.** -/
theorem masksOnStack_reachable (h : E.Reachable ibs c) (T : EmulateStateTracker) :
    MasksOnStack T c := by
  exact Machine.Reaches.invariant h ⟨T, rfl, Nat.zero_le _⟩
    fun u v hu huv hm => hm.step (stepCase_of_ok (inv_reachable hu) huv)

/-- **Exact register writes.** At any point of a submit, whatever the tracker was before it, every
packet so far has been stored as it is, and from its own dwords, exactly when every packet is
contained. -/
theorem storesExactly_iff (h : E.Reachable ibs c) (table : RegTable) (t : RegisterTracker) :
    E.StoresExactly table t c.trace ↔ E.PacketsContained table c.trace := by
  obtain ⟨masks, hmasks, -⟩ := masksOnStack_reachable h t.toEmulateStateTracker
  constructor
  · exact packetsContained_of_stores hmasks
  · intro hcontained es ibIndex va hd es' t' hes ht'
    refine (CapturedPacket.exact_iff_contained _ table t').mpr (hcontained ibIndex va hd ?_)
    rw [hes]
    exact List.mem_append_right es List.mem_cons_self

/-! ## The shader address of the vertex stage -/

/-- `SP_VS_OBJ_START` is a 64-bit register. -/
def shaderTable : RegTable := fun offset => if offset = 0xa81c then some ⟨true⟩ else none

def shaderIbs : List IndirectBufferInfo := [{ vaAddr := 0x1000, sizeInDwords := 3 }]

/-- At `0x1000`, a packet that writes both halves of the register. -/
def bothHalves : Emulation := accepting [.ofDwords 0x1000 [0x48a81c02, 0x2000, 5]]

theorem bothHalves_succeeds : bothHalves.Succeeds shaderIbs [
    .ibStart ⟨.kNormal, 0x1000, 3, false, 7⟩ 0 ⟨0x1000, 3, 1, 7, false⟩ .kNormal,
    .packet 0 0x1000 ⟨0x48a81c02⟩, .ibEnd 0 ⟨0x1000, 3, 0, 0, false⟩] :=
  succeeds_of_successTrace (n := 5) (by rfl)

theorem storesExactly_bothHalves : ∃ c, bothHalves.Reachable shaderIbs c ∧
    Event.packet 0 0x1000 ⟨0x48a81c02⟩ ∈ c.trace ∧ bothHalves.StoresExactly shaderTable {} c.trace := by
  obtain ⟨c, hc, -, htrace⟩ := bothHalves_succeeds
  refine ⟨c, hc, by simp [htrace], (storesExactly_iff hc shaderTable {}).mpr ?_⟩
  intro ibIndex va hd hmem
  have heq : ibIndex = 0 ∧ va = 0x1000 ∧ hd = ⟨0x48a81c02⟩ := by simpa [htrace] using hmem
  obtain ⟨rfl, rfl, rfl⟩ := heq
  exact ⟨by decide, by trivial⟩

/-- At `0x1000`, a packet that writes the low half only, and a `CP_NOP` packet. -/
def lowHalf : Emulation := accepting [.ofDwords 0x1000 [0x48a81c01, 0x2000, 0x70108000]]

theorem lowHalf_succeeds : lowHalf.Succeeds shaderIbs [
    .ibStart ⟨.kNormal, 0x1000, 3, false, 7⟩ 0 ⟨0x1000, 3, 1, 7, false⟩ .kNormal,
    .packet 0 0x1000 ⟨0x48a81c01⟩, .packet 0 0x1008 ⟨0x70108000⟩,
    .ibEnd 0 ⟨0x1000, 3, 0, 0, false⟩] :=
  succeeds_of_successTrace (n := 7) (by rfl)

/-- **A 64-bit register as the last of a packet** takes its high half from the header of the next
packet. -/
theorem lastDword_notExact : ∃ c, lowHalf.Reachable shaderIbs c ∧
    ¬ lowHalf.StoresExactly shaderTable {} c.trace ∧
    (⟨0xa81d, 1, 0x70108000⟩ : RegWrite) ∈
      (lowHalf.capturedPacket 0x1000 ⟨0x48a81c01⟩).regWrites shaderTable := by
  obtain ⟨c, hc, -, htrace⟩ := lowHalf_succeeds
  have hdouble := @CapturedPacket.type4Writes_double
    (lowHalf.capturedPacket 0x1000 ⟨0x48a81c01⟩) shaderTable 0 (by decide) (by decide)
  refine ⟨c, hc, fun h => ?_, ?_⟩
  · obtain ⟨masks, hmasks, -⟩ := masksOnStack_reachable hc {}
    have hcontained := packetsContained_of_stores hmasks h 0 0x1000 ⟨0x48a81c01⟩ (by simp [htrace])
    have hwhole : shaderTable.is64Bit 0xa81c = false := hcontained.2
    exact absurd hwhole (by decide)
  · rw [CapturedPacket.regWrites_type4 (by decide) (by decide), hdouble]
    exact List.mem_cons_of_mem _ (List.mem_cons.mpr (Or.inl (by decide)))

end Emulation

end Dive
