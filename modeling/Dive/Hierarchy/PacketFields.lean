import Mathlib.Data.List.Flatten
import Dive.Pm4.Packet

/-!
# The fields of a packet

* `outputPacketFields`: the description of a packet, from its registers; `Contiguous`,
  **`contiguous_outputPacketFields`**: no dword between its fields is without one.
* `appendPacketFieldNodes`: the nodes of the described fields, group after group, and of the dwords
  after them.
* `Complete`: the nodes show every payload dword, by its fields or as a whole, and read nothing else.
* **`complete_iff`**: they do exactly when the packet is not longer than its description.

The text of a node is left out, but for the value in it.
-/

namespace Dive

/-- `PacketField`. `dword` counts the dwords up to the field, with its own. -/
structure PacketField where
  name : String := ""
  dword : UInt8
  shift : UInt32 := 0
  shr : UInt32 := 0
  mask : UInt32 := 0xffffffff
  deriving DecidableEq, Repr

/-- The fields go on from dword `d` without a gap. -/
def Contiguous : ℕ → List PacketField → Prop
  | _, [] => True
  | d, field :: fields =>
    0 < field.dword.toNat ∧ (field.dword.toNat = d ∨ field.dword.toNat = d + 1) ∧
      Contiguous field.dword.toNat fields

instance decidableContiguous : ∀ d fields, Decidable (Contiguous d fields)
  | _, [] => .isTrue trivial
  | _, field :: fields =>
    have := decidableContiguous field.dword.toNat fields
    inferInstanceAs (Decidable (_ ∧ _))

/-! ## The descriptions -/

/-- A register of a packet; `dword` of `own` and of the bitfields is not set yet. -/
structure PacketRegister where
  offset : ℕ
  is64 : Bool := false
  isAddress : Bool := false
  own : PacketField
  bitfields : List PacketField := []
  deriving DecidableEq, Repr

/-- The fields that are written for a register that ends with dword `dwordCount`. -/
def PacketRegister.fields (r : PacketRegister) (dwordCount : ℕ) : List PacketField :=
  if r.bitfields.isEmpty then
    if r.is64 then
      [{ r.own with name := r.own.name ++ "_LO", dword := UInt8.ofNat (dwordCount - 1) },
        { r.own with name := r.own.name ++ "_HI", dword := UInt8.ofNat dwordCount }]
    else [{ r.own with dword := UInt8.ofNat dwordCount }]
  else r.bitfields.map fun bitfield => { bitfield with dword := UInt8.ofNat dwordCount }

/-- `outputPacketFields`, after `dwordCount` dwords. A number that does not fit in the 8 bits of
`m_dword` does not compile. -/
def outputPacketFields (dwordCount : ℕ) (addressEndOffset : Option ℕ) :
    List PacketRegister → Option (List PacketField)
  | [] => some []
  | r :: registers =>
    if r.offset < dwordCount then
      if addressEndOffset.any (· < r.offset) then none
      else outputPacketFields dwordCount addressEndOffset registers
    else
      let dwordCount := dwordCount + if r.is64 then 2 else 1
      let addressEndOffset := if r.isAddress then some dwordCount else addressEndOffset
      if (r.is64 && !r.bitfields.isEmpty) || 255 < dwordCount then none
      else (outputPacketFields dwordCount addressEndOffset registers).map
        (r.fields dwordCount ++ ·)

/-- The dword number of the last field. -/
def lastDword : ℕ → List PacketField → ℕ
  | d, [] => d
  | _, field :: fields => lastDword field.dword.toNat fields

theorem contiguous_append {d : ℕ} {fields more : List PacketField} (h : Contiguous d fields)
    (hmore : Contiguous (lastDword d fields) more) : Contiguous d (fields ++ more) := by
  induction fields generalizing d with
  | nil => exact hmore
  | cons field fields ih =>
    exact ⟨h.1, h.2.1, ih h.2.2 hmore⟩

theorem contiguous_of_all {d : ℕ} {fields : List PacketField} (hd : 0 < d)
    (h : ∀ field ∈ fields, field.dword.toNat = d) :
    Contiguous d fields ∧ lastDword d fields = d := by
  induction fields with
  | nil => exact ⟨trivial, rfl⟩
  | cons field fields ih =>
    have hfield : field.dword.toNat = d := h field (by simp)
    have hrest := ih fun f hf => h f (by simp [hf])
    rw [Contiguous, lastDword, hfield]
    exact ⟨⟨hd, .inl rfl, hrest.1⟩, hrest.2⟩

theorem PacketRegister.fields_spec {r : PacketRegister} {d : ℕ}
    (hbits : r.is64 = true → r.bitfields = []) (hd : d + (if r.is64 then 2 else 1) ≤ 255) :
    Contiguous d (r.fields (d + if r.is64 then 2 else 1)) ∧
      lastDword d (r.fields (d + if r.is64 then 2 else 1)) = d + if r.is64 then 2 else 1 := by
  cases h64 : r.is64 with
  | true =>
    have hone : (d + 1) % 256 = d + 1 := Nat.mod_eq_of_lt (by simp [h64] at hd; omega)
    have htwo : (d + 2) % 256 = d + 2 := Nat.mod_eq_of_lt (by simp [h64] at hd; omega)
    simp [PacketRegister.fields, hbits h64, h64, Contiguous, lastDword, hone, htwo]
  | false =>
    have hone : (d + 1) % 256 = d + 1 := Nat.mod_eq_of_lt (by simp [h64] at hd; omega)
    cases hb : r.bitfields with
    | nil => simp [PacketRegister.fields, hb, h64, Contiguous, lastDword, hone]
    | cons b bs =>
      have hrest := @contiguous_of_all (d + 1)
        (bs.map fun bitfield => { bitfield with dword := UInt8.ofNat (d + 1) })
        (Nat.succ_pos d) (by simp [hone])
      simpa [PacketRegister.fields, hb, Contiguous, lastDword, hone] using hrest

/-- **The description of a packet has no gaps.** -/
theorem contiguous_outputPacketFields {registers : List PacketRegister} {d : ℕ} {a : Option ℕ}
    {fields : List PacketField} (h : outputPacketFields d a registers = some fields) :
    Contiguous d fields := by
  induction registers generalizing d a fields with
  | nil =>
    obtain rfl : [] = fields := by simpa [outputPacketFields] using h
    trivial
  | cons r registers ih =>
    rw [outputPacketFields] at h
    by_cases hskip : r.offset < d
    · rw [if_pos hskip] at h
      split at h
      · cases h
      · exact ih h
    · rw [if_neg hskip] at h
      by_cases hbad : ((r.is64 && !r.bitfields.isEmpty) ||
          decide (255 < d + if r.is64 then 2 else 1)) = true
      · rw [if_pos hbad] at h
        cases h
      · rw [if_neg hbad] at h
        obtain ⟨more, hmore, rfl⟩ := Option.map_eq_some_iff.mp h
        simp only [Bool.or_eq_true, Bool.and_eq_true, Bool.not_eq_true', decide_eq_true_eq,
          not_or, not_and, Bool.not_eq_false, List.isEmpty_iff, Nat.not_lt] at hbad
        have hspec := r.fields_spec hbad.1 hbad.2
        refine contiguous_append hspec.1 ?_
        rw [hspec.2]
        exact ih hmore

/-- `PacketInfo`. -/
structure PacketInfo where
  maxArraySize : UInt8
  fields : List PacketField
  contiguous : Contiguous 0 fields

/-- The description that `outputPacketInfo` writes. -/
def outputPacketInfo (arraySize : UInt8) (registers : List PacketRegister) : Option PacketInfo :=
  match h : outputPacketFields 0 none registers with
  | none => none
  | some fields => some ⟨arraySize, fields, contiguous_outputPacketFields h⟩

/-- The number of dwords that the fields describe, in one group. -/
def PacketInfo.groupDwords (info : PacketInfo) : ℕ := lastDword 0 info.fields

/-- The number of dwords that are described. -/
def PacketInfo.describedDwords (info : PacketInfo) : ℕ :=
  info.maxArraySize.toNat * info.groupDwords

/-! ## The nodes -/

/-- The value of a field in its dword. -/
def PacketField.value (field : PacketField) (dwordValue : UInt32) : UInt32 :=
  ((dwordValue &&& field.mask) >>> field.shift) <<< field.shr

/-- A node that `AppendPacketFieldNodes` adds. `position` counts the dwords of the payload before
the dword that is read, and `parent` is the index of the array node above it, if any. -/
inductive FieldNode
  | array (index : ℕ)
  | field (parent : Option ℕ) (field : PacketField) (position : ℕ) (value : UInt32)
  | dword (i : ℕ) (position : ℕ) (value : UInt32)
  deriving DecidableEq, Repr

/-- The locals of `AppendPacketFieldNodes` and the nodes so far. -/
structure FieldPass where
  nodes : List FieldNode := []
  endDword : UInt32 := 0xffffffff
  packetEndEarly : Bool := false

section Loops

/- `word` is the dword at a position. -/
variable (word : ℕ → UInt32) (dwordCount : UInt32)

/-- The loop over the fields of a group. -/
def fieldLoop (baseDword : UInt32) (parent : Option ℕ) : List PacketField → FieldPass → FieldPass
  | [], s => s
  | packetField :: fields, s =>
    let fieldDword := baseDword + packetField.dword.toUInt32
    if fieldDword > dwordCount then { s with endDword := fieldDword, packetEndEarly := true }
    else
      let position := (fieldDword - 1).toNat
      fieldLoop baseDword parent fields
        { s with
          endDword := fieldDword
          nodes := s.nodes ++ [.field parent packetField position (packetField.value (word position))] }

/-- The loop over the groups. -/
def arrayLoop (info : PacketInfo) : List ℕ → FieldPass → FieldPass
  | [], s => s
  | array :: arrays, s =>
    let baseDword := if array ≠ 0 then s.endDword else 0
    let grouped := info.maxArraySize > 1 ∧ baseDword < dwordCount
    let nodes := if grouped then s.nodes ++ [.array array] else s.nodes
    let parent := if grouped then some array else none
    let s := fieldLoop word dwordCount baseDword parent info.fields { s with nodes := nodes }
    if s.packetEndEarly then s else arrayLoop info arrays s

/-- The loop over the dwords after the fields. -/
def extraNodes (endDword : UInt32) : List FieldNode :=
  let first := (endDword + 1).toNat
  (List.range' first (dwordCount.toNat + 1 - first)).map fun i => .dword i i (word i)

/-- `AppendPacketFieldNodes`, for a payload of these dwords. -/
def fieldNodes (appendExtraDwords : Bool) (info : PacketInfo) : List FieldNode :=
  let s := arrayLoop word dwordCount info (List.range info.maxArraySize.toNat) {}
  if appendExtraDwords ∧ s.endDword < dwordCount then
    s.nodes ++ extraNodes word dwordCount s.endDword
  else s.nodes

end Loops

/-- The dword at an address. -/
def dwordAt (memManager : IMemoryManager) (submitIndex : UInt32) (vaAddr : UInt64) : UInt32 :=
  (memManager.retrieveMemoryData Buffer.zero submitIndex vaAddr 4).2.u32 0

/-- `AppendPacketFieldNodes`. -/
def appendPacketFieldNodes (memManager : IMemoryManager) (submitIndex : UInt32) (vaAddr : UInt64)
    (dwordCount : UInt32) (appendExtraDwords : Bool) (info : PacketInfo) : List FieldNode :=
  fieldNodes (fun position => dwordAt memManager submitIndex (vaAddr + UInt64.ofNat position * 4))
    dwordCount appendExtraDwords info

/-! ## What the nodes show -/

/-- The fields and the whole dwords that the nodes show of a position, with their values. -/
def nodesAt (nodes : List FieldNode) (p : ℕ) : List (Option PacketField × UInt32) :=
  nodes.filterMap fun
    | .array _ => none
    | .field _ field position value => if position = p then some (some field, value) else none
    | .dword _ position value => if position = p then some (none, value) else none

/-- What there is to show of a position: its fields or, without a description, the whole dword. -/
def display (info : PacketInfo) (word : ℕ → UInt32) (p : ℕ) : List (Option PacketField × UInt32) :=
  if p < info.describedDwords then
    (info.fields.filter fun field => field.dword.toNat = p % info.groupDwords + 1).map
      fun field => (some field, field.value (word p))
  else [(none, word p)]

/-- **The nodes show every dword of the payload once, and nothing outside.** -/
structure Complete (info : PacketInfo) (word : ℕ → UInt32) (dwordCount : ℕ)
    (nodes : List FieldNode) : Prop where
  covers : ∀ p < dwordCount, nodesAt nodes p = display info word p ∧ nodesAt nodes p ≠ []
  inside : ∀ p, dwordCount ≤ p → nodesAt nodes p = []

@[simp] theorem nodesAt_nil (p : ℕ) : nodesAt [] p = [] := rfl

@[simp] theorem nodesAt_append (l l' : List FieldNode) (p : ℕ) :
    nodesAt (l ++ l') p = nodesAt l p ++ nodesAt l' p := by
  simp [nodesAt, List.filterMap_append]

@[simp] theorem nodesAt_array (a p : ℕ) : nodesAt [.array a] p = [] := rfl

theorem nodesAt_field (parent : Option ℕ) (field : PacketField) (position p : ℕ) (v : UInt32) :
    nodesAt [.field parent field position v] p =
      if position = p then [(some field, v)] else [] := by
  simp only [nodesAt, List.filterMap_cons, List.filterMap_nil]
  split_ifs <;> rfl

theorem nodesAt_extra (word : ℕ → UInt32) (first n p : ℕ) :
    nodesAt ((List.range' first n).map fun i => FieldNode.dword i i (word i)) p =
      if first ≤ p ∧ p < first + n then [(none, word p)] else [] := by
  induction n generalizing first with
  | zero => simp [nodesAt]
  | succ n ih =>
    rw [List.range'_succ, List.map_cons, ← List.singleton_append, nodesAt_append, ih]
    by_cases hp : first = p
    · subst hp
      simp [nodesAt]
    · have hiff : (first + 1 ≤ p ∧ p < first + 1 + n) ↔ (first ≤ p ∧ p < first + (n + 1)) := by
        omega
      have hnone : nodesAt [FieldNode.dword first first (word first)] p = [] := by
        simp [nodesAt, hp]
      rw [hnone, List.nil_append]
      simp only [hiff]

/-! ## The loops -/

theorem dword_le_lastDword {d : ℕ} {fields : List PacketField} (h : Contiguous d fields) :
    d ≤ lastDword d fields ∧
      ∀ field ∈ fields, d ≤ field.dword.toNat ∧ field.dword.toNat ≤ lastDword d fields := by
  induction fields generalizing d with
  | nil => exact ⟨le_rfl, by simp⟩
  | cons f fields ih =>
    obtain ⟨hpos, hd, hrest⟩ := h
    have hle : d ≤ f.dword.toNat := by omega
    have hlast := ih hrest
    rw [lastDword]
    refine ⟨hle.trans hlast.1, fun field hfield => ?_⟩
    rcases List.mem_cons.mp hfield with rfl | hfield
    · exact ⟨hle, hlast.1⟩
    · exact ⟨hle.trans (hlast.2 field hfield).1, (hlast.2 field hfield).2⟩

theorem lastDword_lt {d : ℕ} {fields : List PacketField} (hd : d < 256) :
    lastDword d fields < 256 := by
  induction fields generalizing d with
  | nil => exact hd
  | cons f fields ih => exact ih f.dword.toNat_lt

section Loops

variable {word : ℕ → UInt32} {dwordCount baseDword : UInt32} {parent : Option ℕ}

theorem toNat_fieldDword (hbase : baseDword.toNat < 2 ^ 31) (d : UInt8) :
    (baseDword + d.toUInt32).toNat = baseDword.toNat + d.toNat := by
  have := d.toNat_lt
  rw [UInt32.toNat_add, UInt8.toNat_toUInt32, Nat.mod_eq_of_lt (by omega)]

theorem toNat_position (hbase : baseDword.toNat < 2 ^ 31) {d : UInt8} (hd : 0 < d.toNat) :
    (baseDword + d.toUInt32 - 1).toNat + 1 = baseDword.toNat + d.toNat := by
  have hsum := toNat_fieldDword hbase d
  have hle : (1 : UInt32) ≤ baseDword + d.toUInt32 := by
    rw [UInt32.le_iff_toNat_le, hsum]
    exact Nat.le_add_left_of_le hd
  rw [UInt32.toNat_sub_of_le _ _ hle, hsum]
  exact Nat.sub_add_cancel (Nat.le_add_left_of_le hd)

/-- The fields of a group that starts after `base` dwords that a packet of `count` dwords shows
at a position. -/
def groupAt (word : ℕ → UInt32) (count base : ℕ) (fields : List PacketField) (p : ℕ) :
    List (Option PacketField × UInt32) :=
  (fields.filter fun field =>
      base + field.dword.toNat ≤ count ∧ base + field.dword.toNat = p + 1).map
    fun field => (some field, field.value (word p))

theorem groupAt_eq_nil {count base d : ℕ} {fields : List PacketField} (h : Contiguous d fields)
    (hcount : count < base + d) (p : ℕ) : groupAt word count base fields p = [] := by
  simp only [groupAt, List.map_eq_nil_iff, List.filter_eq_nil_iff, decide_eq_true_eq]
  intro field hfield
  have := ((dword_le_lastDword h).2 field hfield).1
  omega

/-- **The loop over the fields** shows the fields that the packet has. It ends after the last of
them, or early and past the packet. -/
theorem fieldLoop_spec (hbase : baseDword.toNat < 2 ^ 31) {fields : List PacketField} {d : ℕ}
    (h : Contiguous d fields) {s : FieldPass}
    (hend : fields = [] → s.endDword.toNat = baseDword.toNat + d ∧
      baseDword.toNat + d ≤ dwordCount.toNat) :
    (∀ p, nodesAt (fieldLoop word dwordCount baseDword parent fields s).nodes p =
      nodesAt s.nodes p ++ groupAt word dwordCount.toNat baseDword.toNat fields p) ∧
    if baseDword.toNat + lastDword d fields ≤ dwordCount.toNat then
      (fieldLoop word dwordCount baseDword parent fields s).packetEndEarly = s.packetEndEarly ∧
      (fieldLoop word dwordCount baseDword parent fields s).endDword.toNat =
        baseDword.toNat + lastDword d fields
    else
      (fieldLoop word dwordCount baseDword parent fields s).packetEndEarly = true ∧
      dwordCount.toNat < (fieldLoop word dwordCount baseDword parent fields s).endDword.toNat := by
  induction fields generalizing d s with
  | nil => simp [fieldLoop, groupAt, lastDword, hend]
  | cons f fields ih =>
    obtain ⟨hpos, -, hrest⟩ := h
    have hsum := toNat_fieldDword hbase f.dword
    have hlast := (dword_le_lastDword hrest).1
    rw [fieldLoop, lastDword]
    by_cases hearly : baseDword + f.dword.toUInt32 > dwordCount
    · have hlt : dwordCount.toNat < baseDword.toNat + f.dword.toNat := by
        rwa [gt_iff_lt, UInt32.lt_iff_toNat_lt, hsum] at hearly
      rw [if_pos hearly, if_neg (by omega)]
      refine ⟨fun p => ?_, rfl, by rwa [hsum]⟩
      have hall : Contiguous f.dword.toNat (f :: fields) := ⟨hpos, .inl rfl, hrest⟩
      simp [groupAt_eq_nil hall hlt p]
    · have hle : baseDword.toNat + f.dword.toNat ≤ dwordCount.toNat := by
        rwa [gt_iff_lt, UInt32.lt_iff_toNat_lt, hsum, Nat.not_lt] at hearly
      rw [if_neg hearly]
      have hloop := ih hrest (s := { s with
        endDword := baseDword + f.dword.toUInt32
        nodes := s.nodes ++ [.field parent f (baseDword + f.dword.toUInt32 - 1).toNat
          (f.value (word (baseDword + f.dword.toUInt32 - 1).toNat))] }) fun _ => ⟨hsum, hle⟩
      refine ⟨fun p => ?_, hloop.2⟩
      have hposition := toNat_position hbase hpos
      rw [hloop.1 p, nodesAt_append, nodesAt_field, List.append_assoc]
      congr 1
      by_cases hp : (baseDword + f.dword.toUInt32 - 1).toNat = p
      · have hf : baseDword.toNat + f.dword.toNat = p + 1 := by omega
        simp [groupAt, hp, hf, hf ▸ hle]
      · have hf : baseDword.toNat + f.dword.toNat ≠ p + 1 := by omega
        simp [groupAt, hp, hf]

variable {info : PacketInfo}

/-- **The loop over the groups** shows the groups that the packet has. It ends after the last of
them, or past the packet. -/
theorem arrayLoop_spec (hne : info.fields ≠ []) {n a : ℕ} (hn : a + n ≤ 255) {s : FieldPass}
    (hs : s.packetEndEarly = false) (ha : a ≠ 0 → s.endDword.toNat = a * info.groupDwords) :
    (∀ p, nodesAt (arrayLoop word dwordCount info (List.range' a n) s).nodes p =
      nodesAt s.nodes p ++ (List.range' a n).flatMap fun b =>
        groupAt word dwordCount.toNat (b * info.groupDwords) info.fields p) ∧
    (0 < n → if (a + n) * info.groupDwords ≤ dwordCount.toNat then
        (arrayLoop word dwordCount info (List.range' a n) s).endDword.toNat =
          (a + n) * info.groupDwords
      else dwordCount.toNat <
        (arrayLoop word dwordCount info (List.range' a n) s).endDword.toNat) := by
  induction n generalizing a s with
  | zero => simp [arrayLoop]
  | succ n ih =>
    have hlt : info.groupDwords < 256 := lastDword_lt (by decide)
    have hmul : a * info.groupDwords ≤ 255 * 255 := Nat.mul_le_mul (by omega) (by omega)
    have hbase : (if a ≠ 0 then s.endDword else 0).toNat = a * info.groupDwords := by
      by_cases h0 : a = 0
      · simp [h0]
      · rw [if_pos h0, ha h0]
    rw [List.range'_succ, arrayLoop]
    generalize (if a ≠ 0 then s.endDword else 0) = base at hbase
    generalize hs' : (if info.maxArraySize > 1 ∧ base < dwordCount then
      s.nodes ++ [.array a] else s.nodes) = nodes
    have hnodes : ∀ p, nodesAt nodes p = nodesAt s.nodes p := by
      intro p
      rw [← hs']
      split_ifs <;> simp
    generalize (if info.maxArraySize > 1 ∧ base < dwordCount then some a else none) = parent
    have hloop := @fieldLoop_spec word dwordCount base parent (by omega) info.fields 0
      info.contiguous { s with nodes := nodes } fun h => absurd h hne
    generalize fieldLoop word dwordCount base parent info.fields { s with nodes := nodes } = s₁
      at hloop
    obtain ⟨hat, hend⟩ := hloop
    simp only [hbase, hnodes] at hat hend
    rw [show lastDword 0 info.fields = info.groupDwords from rfl, ← Nat.succ_mul] at hend
    by_cases hfits : (a + 1) * info.groupDwords ≤ dwordCount.toNat
    · rw [if_pos hfits] at hend
      have hnext := ih (a := a + 1) (by omega) (hend.1.trans hs) fun _ => hend.2
      rw [if_neg (by simp [hend.1, hs])]
      refine ⟨fun p => ?_, fun _ => ?_⟩
      · rw [hnext.1 p, hat p, List.append_assoc, List.flatMap_cons]
      · rcases Nat.eq_zero_or_pos n with rfl | hpos
        · rw [if_pos (by simpa using hfits)]
          exact hend.2
        · have := hnext.2 hpos
          rwa [show a + 1 + n = a + (n + 1) by omega] at this
    · rw [if_neg hfits] at hend
      have hpast : ∀ b, a + 1 ≤ b → dwordCount.toNat < b * info.groupDwords := fun b hb =>
        (Nat.not_le.mp hfits).trans_le (Nat.mul_le_mul_right _ hb)
      have hrest : ∀ p, ((List.range' (a + 1) n).flatMap fun b =>
          groupAt word dwordCount.toNat (b * info.groupDwords) info.fields p) = [] := by
        intro p
        rw [List.flatMap_eq_nil_iff]
        intro b hb
        exact groupAt_eq_nil info.contiguous (hpast b (List.mem_range'_1.mp hb).1) p
      rw [if_pos hend.1]
      refine ⟨fun p => ?_, fun _ => ?_⟩
      · rw [hat p, List.flatMap_cons, hrest p, List.append_nil]
      · rw [if_neg (Nat.not_le.mpr (hpast (a + (n + 1)) (by omega)))]
        exact hend.2

theorem arrayLoop_empty (he : info.fields = []) (arrays : List ℕ) (s : FieldPass) :
    (∀ p, nodesAt (arrayLoop word dwordCount info arrays s).nodes p = nodesAt s.nodes p) ∧
      (arrayLoop word dwordCount info arrays s).endDword = s.endDword := by
  induction arrays generalizing s with
  | nil => exact ⟨fun _ => rfl, rfl⟩
  | cons a arrays ih =>
    rw [arrayLoop]
    simp only [he, fieldLoop]
    split_ifs <;> simp [ih]

end Loops

/-! ## The packet -/

theorem flatMap_range_ite {α : Type} (l : List α) (n q : ℕ) :
    ((List.range n).flatMap fun a => if a = q then l else []) = if q < n then l else [] := by
  induction n with
  | zero => rfl
  | succ n ih =>
    rw [List.range_succ, List.flatMap_append, ih]
    rcases Nat.lt_trichotomy q n with h | rfl | h
    · simp [h, h.ne', Nat.lt_succ_of_lt h]
    · simp
    · simp [h.ne, Nat.not_lt.mpr h.le, Nat.not_lt.mpr (Nat.succ_le_of_lt h)]

variable {info : PacketInfo} {word : ℕ → UInt32}

theorem PacketInfo.dword_bounds (info : PacketInfo) :
    ∀ field ∈ info.fields, 0 < field.dword.toNat ∧ field.dword.toNat ≤ info.groupDwords := by
  have hpos : ∀ fields d, Contiguous d fields → ∀ field ∈ fields, 0 < field.dword.toNat := by
    intro fields
    induction fields with
    | nil => simp
    | cons f fields ih =>
      intro d h field hfield
      rcases List.mem_cons.mp hfield with rfl | hfield
      · exact h.1
      · exact ih _ h.2.2 field hfield
  exact fun field hfield => ⟨hpos _ 0 info.contiguous field hfield,
    ((dword_le_lastDword info.contiguous).2 field hfield).2⟩

theorem groupAt_eq (count a p : ℕ) :
    groupAt word count (a * info.groupDwords) info.fields p =
      if a = p / info.groupDwords then
        if p < count then
          (info.fields.filter fun field => field.dword.toNat = p % info.groupDwords + 1).map
            fun field => (some field, field.value (word p))
        else []
      else [] := by
  have hiff : ∀ field ∈ info.fields,
      (a * info.groupDwords + field.dword.toNat ≤ count ∧
        a * info.groupDwords + field.dword.toNat = p + 1) ↔
      (a = p / info.groupDwords ∧ p < count) ∧ field.dword.toNat = p % info.groupDwords + 1 := by
    intro field hfield
    obtain ⟨hpos, hle⟩ := info.dword_bounds field hfield
    have hunique := Nat.div_mod_unique (a := p) (b := info.groupDwords)
      (c := field.dword.toNat - 1) (d := a) (by omega)
    rw [Nat.mul_comm] at hunique
    constructor
    · rintro ⟨hcount, heq⟩
      have hdiv := hunique.mpr ⟨by omega, by omega⟩
      exact ⟨⟨hdiv.1.symm, by omega⟩, by omega⟩
    · rintro ⟨⟨ha, hp⟩, hd⟩
      have hmul := hunique.mp ⟨ha.symm, by omega⟩
      omega
  have hfilter : (info.fields.filter fun field =>
        a * info.groupDwords + field.dword.toNat ≤ count ∧
          a * info.groupDwords + field.dword.toNat = p + 1) =
      info.fields.filter fun field =>
        (a = p / info.groupDwords ∧ p < count) ∧ field.dword.toNat = p % info.groupDwords + 1 :=
    List.filter_congr fun field hfield => decide_eq_decide.mpr (hiff field hfield)
  rw [groupAt, hfilter]
  split_ifs with h₁ h₂
  · simp [← h₁, h₂]
  · simp [h₂]
  · simp [h₁]

theorem groupDwords_pos (hne : info.fields ≠ []) : 0 < info.groupDwords := by
  obtain ⟨field, hfield⟩ := List.exists_mem_of_ne_nil _ hne
  have := info.dword_bounds field hfield
  exact this.1.trans_le this.2

theorem exists_field {d k : ℕ} {fields : List PacketField} (h : Contiguous d fields) (hd : d < k)
    (hk : k ≤ lastDword d fields) : ∃ field ∈ fields, field.dword.toNat = k := by
  induction fields generalizing d with
  | nil => exact absurd hk (Nat.not_le.mpr hd)
  | cons f fields ih =>
    by_cases hf : f.dword.toNat = k
    · exact ⟨f, by simp, hf⟩
    · obtain ⟨field, hfield, hdword⟩ := ih h.2.2 (by have := h.2.1; omega) hk
      exact ⟨field, by simp [hfield], hdword⟩

theorem display_ne_nil (p : ℕ) : display info word p ≠ [] := by
  rw [display]
  split_ifs with hp
  · have hpos : 0 < info.groupDwords := by
      refine Nat.pos_of_ne_zero fun h0 => ?_
      simp [PacketInfo.describedDwords, h0] at hp
    obtain ⟨field, hfield, hdword⟩ := exists_field info.contiguous
      (k := p % info.groupDwords + 1) (Nat.succ_pos _) (Nat.mod_lt p hpos)
    refine List.ne_nil_of_mem (a := (some field, field.value (word p))) ?_
    exact List.mem_map_of_mem (List.mem_filter.mpr ⟨hfield, by simpa using hdword⟩)
  · exact List.cons_ne_nil _ _

theorem nodesAt_arrayLoop (dwordCount : UInt32) (p : ℕ) :
    nodesAt (arrayLoop word dwordCount info (List.range info.maxArraySize.toNat) {}).nodes p =
      if p < info.describedDwords ∧ p < dwordCount.toNat then display info word p else [] := by
  by_cases hne : info.fields = []
  · rw [(arrayLoop_empty hne _ _).1 p, if_neg]
    · rfl
    · simp [PacketInfo.describedDwords, PacketInfo.groupDwords, hne, lastDword]
  · have hlt := info.maxArraySize.toNat_lt
    have hloop := (@arrayLoop_spec word dwordCount info hne info.maxArraySize.toNat 0 (by omega)
      {} rfl (by simp)).1 p
    have hdiv : p / info.groupDwords < info.maxArraySize.toNat ↔ p < info.describedDwords :=
      Nat.div_lt_iff_lt_mul (groupDwords_pos hne)
    rw [List.range_eq_range', hloop, ← List.range_eq_range']
    simp only [groupAt_eq, flatMap_range_ite, hdiv]
    by_cases hp : p < info.describedDwords <;> simp [display, hp]

theorem endDword_arrayLoop {dwordCount : UInt32}
    (h : (arrayLoop word dwordCount info (List.range info.maxArraySize.toNat) {}).endDword <
      dwordCount) :
    (arrayLoop word dwordCount info (List.range info.maxArraySize.toNat) {}).endDword.toNat =
      info.describedDwords := by
  have hcount := dwordCount.toNat_lt
  rw [UInt32.lt_iff_toNat_lt] at h
  by_cases hne : info.fields = []
  · rw [(arrayLoop_empty hne _ _).2] at h
    exact absurd h (by simp; omega)
  · have hlt := info.maxArraySize.toNat_lt
    rcases Nat.eq_zero_or_pos info.maxArraySize.toNat with h0 | hpos
    · rw [h0] at h
      exact absurd h (by simp [arrayLoop]; omega)
    · have hloop := (@arrayLoop_spec word dwordCount info hne info.maxArraySize.toNat 0
        (by omega) {} rfl (by simp)).2 hpos
      rw [← List.range_eq_range', Nat.zero_add] at hloop
      split_ifs at hloop
      · exact hloop
      · exact absurd h (Nat.not_lt.mpr hloop.le)

/-- **What the nodes show**: the fields of the dwords that the description has, and the dwords from
the second one after it, with one dword past the packet. -/
theorem nodesAt_fieldNodes (dwordCount : UInt32) (appendExtraDwords : Bool) (p : ℕ) :
    nodesAt (fieldNodes word dwordCount appendExtraDwords info) p =
      (if p < info.describedDwords ∧ p < dwordCount.toNat then display info word p else []) ++
      if appendExtraDwords ∧
          (arrayLoop word dwordCount info (List.range info.maxArraySize.toNat) {}).endDword <
            dwordCount ∧
          info.describedDwords < p ∧ p ≤ dwordCount.toNat then [(none, word p)] else [] := by
  rw [← nodesAt_arrayLoop, fieldNodes]
  by_cases hextra : appendExtraDwords ∧
      (arrayLoop word dwordCount info (List.range info.maxArraySize.toNat) {}).endDword <
        dwordCount
  · have hend := endDword_arrayLoop hextra.2
    have hlt := UInt32.lt_iff_toNat_lt.mp hextra.2
    have hcount := dwordCount.toNat_lt
    have hfirst : ((arrayLoop word dwordCount info (List.range info.maxArraySize.toNat)
        {}).endDword + 1).toNat = info.describedDwords + 1 := by
      rw [UInt32.toNat_add, hend, Nat.mod_eq_of_lt (by rw [hend] at hlt; simp; omega)]
      rfl
    rw [hend] at hlt
    rw [if_pos hextra, nodesAt_append, extraNodes, hfirst, nodesAt_extra]
    have hiff : (info.describedDwords + 1 ≤ p ∧
        p < info.describedDwords + 1 + (dwordCount.toNat + 1 - (info.describedDwords + 1))) ↔
        info.describedDwords < p ∧ p ≤ dwordCount.toNat := by omega
    simp only [hiff, hextra.1, hextra.2, true_and]
  · rw [if_neg hextra]
    simp [← and_assoc, hextra]

/-- **The nodes are complete exactly for the packets that are not longer than their description.** -/
theorem complete_iff (memManager : IMemoryManager) (submitIndex : UInt32) (vaAddr : UInt64)
    (dwordCount : UInt32) (appendExtraDwords : Bool) (info : PacketInfo) :
    Complete info
        (fun position => dwordAt memManager submitIndex (vaAddr + UInt64.ofNat position * 4))
        dwordCount.toNat
        (appendPacketFieldNodes memManager submitIndex vaAddr dwordCount appendExtraDwords info) ↔
      dwordCount.toNat ≤ info.describedDwords := by
  rw [appendPacketFieldNodes]
  generalize (fun position => dwordAt memManager submitIndex (vaAddr + UInt64.ofNat position * 4))
    = word
  constructor
  · intro h
    by_contra hlong
    refine (h.covers info.describedDwords (Nat.not_le.mp hlong)).2 ?_
    simp [nodesAt_fieldNodes]
  · intro hle
    have hnodes : ∀ p, nodesAt (fieldNodes word dwordCount appendExtraDwords info) p =
        if p < dwordCount.toNat then display info word p else [] := by
      intro p
      have hextra : ¬(appendExtraDwords = true ∧
          (arrayLoop word dwordCount info (List.range info.maxArraySize.toNat) {}).endDword <
            dwordCount ∧
          info.describedDwords < p ∧ p ≤ dwordCount.toNat) := by
        rintro ⟨-, -, h₁, h₂⟩
        omega
      rw [nodesAt_fieldNodes, if_neg hextra, List.append_nil]
      by_cases hp : p < dwordCount.toNat
      · simp [hp, hp.trans_le hle]
      · simp [hp]
    refine ⟨fun p hp => ?_, fun p hp => ?_⟩
    · rw [hnodes p, if_pos hp]
      exact ⟨rfl, display_ne_nil p⟩
    · rw [hnodes p, if_neg (Nat.not_lt.mpr hp)]

/-! ## A packet that is longer -/

/-- A packet of two dwords, after its header. -/
def longPacket : IMemoryManager :=
  MemoryManager.toInterface { memoryBlocks := [MemoryBlock.ofDwords 0x1000 [5, 6]] }

/-- Its description has one dword. -/
def shortInfo : PacketInfo := ⟨1, [{ dword := 1 }], by decide⟩

/-- The second dword is not shown, and the dword after the packet is. -/
theorem longPacket_not_complete :
    (nodesAt (appendPacketFieldNodes longPacket 0 0x1000 2 true shortInfo) 1 = [] ∧
      nodesAt (appendPacketFieldNodes longPacket 0 0x1000 2 true shortInfo) 2 ≠ []) ∧
    ¬Complete shortInfo (fun position => dwordAt longPacket 0 (0x1000 + UInt64.ofNat position * 4))
      2 (appendPacketFieldNodes longPacket 0 0x1000 2 true shortInfo) := by
  have hshown : nodesAt (appendPacketFieldNodes longPacket 0 0x1000 2 true shortInfo) 1 = [] ∧
      nodesAt (appendPacketFieldNodes longPacket 0 0x1000 2 true shortInfo) 2 ≠ [] := by
    decide +kernel
  exact ⟨hshown, fun h => hshown.2 (h.inside 2 le_rfl)⟩

end Dive
