import Dive.Lib.Monitor
import Dive.StructOfArrays.Access

/-!
# The list of records behind a structure of arrays

* `Records`: a list of records, each with a value and a flag for every cell, and a capacity;
  `recordStep`: what the operations do to it.
* `Sound`, `Holds`: the structure is in order, and shows the records.
* `holds_set`, `holds_reserve`, `holds_add`, `Copied`: one structure, operation by operation.
* `Fit`: an operation that is allowed. **`run_holds_records`**: after operations that are, every
  structure shows its records.
-/

namespace Dive

namespace StructOfArrays

open Memory MixedRadix

/-! ## Records -/

/-- What is in a cell. -/
structure Content where
  value : List UInt8
  isSet : Bool
  deriving DecidableEq

abbrev Record (L : Layout) : Type := Cell L → Content

/-- A new record: the defaults. -/
def Record.fresh (L : Layout) : Record L := fun c => ⟨(L.get c.field).default, false⟩

/-- A list of records with a capacity. -/
structure Records (L : Layout) where
  records : List (Record L) := []
  capacity : ℕ := 0

namespace Records

variable {L : Layout} (A : Records L)

/-- A new record at the end, unless the capacity is used up. -/
def add : Records L :=
  if Full A.records.length A.capacity then A
  else
    { records := A.records ++ [Record.fresh L]
      capacity := if A.capacity ≤ A.records.length then roundUp (grownCap A.capacity)
        else A.capacity }

def reserve (newCap : ℕ) : Records L :=
  { A with capacity := if newCap ≤ A.capacity then A.capacity else roundUp newCap }

def replace (id : ℕ) (r : Record L) : Records L := { A with records := A.records.set id r }

end Records

variable {L : Layout} {O : Type} [DecidableEq O]

/-- What an operation does to the records. -/
def recordStep (A : O → Records L) : Op L O → O → Records L
  | .add o => Function.update A o (A o).add
  | .set o id c value =>
    Function.update A o
      { A o with records := (A o).records.modify id fun r => Function.update r c ⟨value, true⟩ }
  | .clear o => Function.update A o { A o with records := [] }
  | .reserve o newCap => Function.update A o ((A o).reserve newCap.toNat)
  | .assign o id o' id' =>
    match (A o').records[id']? with
    | some r' => Function.update A o ((A o).replace id r')
    | none => A
  | .swap o id o' id' =>
    match (A o).records[id]?, (A o').records[id']? with
    | some r, some r' =>
      let B := Function.update A o ((A o).replace id r')
      Function.update B o' ((B o').replace id' r)
    | _, _ => A
  | .move o o' => Function.update (Function.update A o (A o')) o' {}
  | .reset o => Function.update A o {}

/-! ## What a structure shows -/

/-- What is in a cell of an element. -/
def content (L : Layout) (s : Soa) (id : ℕ) (c : Cell L) : Content :=
  ⟨get L s c.field id c.index, isFieldSet L s c.field id c.index⟩

/-- The structure shows the records. -/
structure Holds (L : Layout) (s : Soa) (A : Records L) : Prop where
  size_eq : s.size = A.records.length
  cap_eq : s.cap = A.capacity
  content_eq : ∀ id r, A.records[id]? = some r → ∀ c, content L s id c = r c

/-- The structure is in order. -/
structure Sound (L : Layout) (s : Soa) : Prop where
  size_le : s.size ≤ s.cap
  cap_lt : s.cap < 2 ^ 32
  cap_dvd : kAlignment ∣ s.cap
  numbers_le : s.size * kNumFields L ≤ 2 ^ 32
  bits_lt : 0 < s.cap → s.cap * kNumFields L / 8 < s.isSetBuffer.length

/-- The structure was not moved from. -/
def Live (s : Soa) : Prop := s.allocated = true ∨ s.cap = 0

instance (s : Soa) : Decidable (Live s) := inferInstanceAs (Decidable (_ ∨ _))

variable {s t : Soa} {A : Records L} {id id' : ℕ} {i : Fin L.length} {c d : Cell L}
  {value : List UInt8}

theorem Sound.fits (h : Sound L s) (hid : id < s.size) : Fits L s id where
  lt_cap := hid.trans_le h.size_le
  numbers_le := (Nat.mul_le_mul_right _ hid).trans h.numbers_le

theorem Sound.bits (h : Sound L s) (hid : id < s.size) :
    s.cap * kNumFields L / 8 < s.isSetBuffer.length :=
  h.bits_lt ((Nat.zero_le _).trans_lt (hid.trans_le h.size_le))

theorem Holds.lt_size (h : Holds L s A) {r : Record L} (hr : A.records[id]? = some r) :
    id < s.size := by
  rw [h.size_eq]
  exact (List.getElem?_eq_some_iff.mp hr).1

theorem sound_new : Sound L {} where
  size_le := le_rfl
  cap_lt := by decide
  cap_dvd := Dvd.intro_left 0 rfl
  numbers_le := by simp
  bits_lt := fun h => absurd h (lt_irrefl 0)

theorem holds_new : Holds L {} {} where
  size_eq := rfl
  cap_eq := rfl
  content_eq := fun id r h => by simp at h

/-! ## The setter -/

/-- The members that the setters keep. -/
structure SameShape (s t : Soa) : Prop where
  size_eq : t.size = s.size
  cap_eq : t.cap = s.cap
  allocated_eq : t.allocated = s.allocated
  bits_eq : t.isSetBuffer.length = s.isSetBuffer.length

theorem SameShape.rfl : SameShape s s := ⟨Eq.refl _, Eq.refl _, Eq.refl _, Eq.refl _⟩

theorem SameShape.trans {u : Soa} (h : SameShape s t) (h' : SameShape t u) : SameShape s u :=
  ⟨h'.1.trans h.1, h'.2.trans h.2, h'.3.trans h.3, h'.4.trans h.4⟩

theorem SameShape.sound (h : SameShape s t) (hs : Sound L s) : Sound L t where
  size_le := by rw [h.size_eq, h.cap_eq]; exact hs.size_le
  cap_lt := by rw [h.cap_eq]; exact hs.cap_lt
  cap_dvd := by rw [h.cap_eq]; exact hs.cap_dvd
  numbers_le := by rw [h.size_eq]; exact hs.numbers_le
  bits_lt := by rw [h.cap_eq, h.bits_eq]; exact hs.bits_lt

theorem sameShape_set (s : Soa) (i : Fin L.length) (id : ℕ) (index : List ℕ) (value : List UInt8) :
    SameShape s (set L s i id index value) :=
  ⟨rfl, rfl, rfl, PackedBits.length_mark _ _⟩

theorem sameShape_write (s : Soa) (i : Fin L.length) (id : ℕ) (index : List ℕ)
    (value : List UInt8) : SameShape s (write L s i id index value) :=
  ⟨rfl, rfl, rfl, rfl⟩

theorem content_set_self (hs : Sound L s) (hid : id < s.size) (c : Cell L)
    (hv : value.length = (L.get c.field).size) :
    content L (set L s c.field id c.index value) id c = ⟨value, true⟩ := by
  have hvalue : get L (write L s c.field id c.index value) c.field id c.index = value :=
    get_write_self c hv
  have hflag := isFieldSet_mark_self (s := write L s c.field id c.index value)
    ⟨(hs.fits hid).1, (hs.fits hid).2⟩ (hs.bits hid) c
  exact congrArg₂ Content.mk hvalue hflag

theorem content_set_of_ne (hs : Sound L s) (hid : id < s.size) (hid' : id' < s.size)
    (hne : id' ≠ id ∨ d ≠ c) (hv : value.length = (L.get c.field).size) :
    content L (set L s c.field id c.index value) id' d = content L s id' d := by
  have hvalue := get_write_of_ne (hs.fits hid) (hs.fits hid') hne hv
  have hflag := isFieldSet_mark_of_ne (s := write L s c.field id c.index value)
    ⟨(hs.fits hid).1, (hs.fits hid).2⟩ ⟨(hs.fits hid').1, (hs.fits hid').2⟩ (hs.bits hid) hne
  exact congrArg₂ Content.mk hvalue hflag

theorem holds_set (hs : Sound L s) (h : Holds L s A) (hid : id < s.size)
    (hv : value.length = (L.get c.field).size) :
    Holds L (set L s c.field id c.index value)
      { A with records := A.records.modify id fun r => Function.update r c ⟨value, true⟩ } where
  size_eq := by
    rw [List.length_modify]
    exact h.size_eq
  cap_eq := h.cap_eq
  content_eq := by
    intro id' r hr d
    by_cases heq : id = id'
    · subst heq
      rw [List.getElem?_modify_eq] at hr
      obtain ⟨r, hrec, rfl⟩ := Option.map_eq_some_iff.mp hr
      by_cases hd : d = c
      · subst hd
        rw [content_set_self hs hid d hv, Function.update_self]
      · rw [content_set_of_ne hs hid hid (.inr hd) hv, Function.update_of_ne hd]
        exact h.content_eq id r hrec d
    · have hrec := (List.getElem?_modify_ne _ A.records heq).symm.trans hr
      rw [content_set_of_ne hs hid (h.lt_size hrec) (.inl (Ne.symm heq)) hv]
      exact h.content_eq id' r hrec d

/-! ## Growth -/

theorem roundUp_lt (n : ℕ) : roundUp n < 2 ^ 32 := Nat.mod_lt _ (by decide)

theorem roundUp_dvd (n : ℕ) : kAlignment ∣ roundUp n := by
  rw [roundUp, basic, kAlignment]
  omega

theorem roundUp_of_dvd {n : ℕ} (h : kAlignment ∣ n) (hlt : n < 2 ^ 32) : roundUp n = n := by
  rw [kAlignment] at h
  rw [roundUp, basic, kAlignment]
  omega

theorem le_roundUp {n : ℕ} (h : n ≤ 2 ^ 32 - kAlignment) : n ≤ roundUp n := by
  rw [kAlignment] at h
  rw [roundUp, basic, kAlignment]
  omega

theorem get_copyArrays {cap : ℕ} (h : Fits L s id) (ht : Fits L t id) (hid : id < s.size)
    (hsize : s.size ≤ cap) (hcap : t.cap = cap) (hbuffer : t.buffer = copyArrays L s cap)
    (c : Cell L) : get L t c.field id c.index = get L s c.field id c.index := by
  have hrange := c.range_le
  have hin : id * (L.get c.field).bytes + (L.get c.field).bytes ≤
      (L.get c.field).bytes * s.size := by
    have hle := Nat.mul_le_mul_left (L.get c.field).bytes hid
    rw [Nat.mul_succ, Nat.mul_comm _ id] at hle
    exact hle
  have hk : id * (L.get c.field).bytes + c.flat * (L.get c.field).size + (L.get c.field).size ≤
      (load s.buffer (fieldOffset L c.field * s.cap) ((L.get c.field).bytes * s.size)).length := by
    rw [length_load]
    omega
  rw [get, ptr_eq ht, hcap, hbuffer, copyArrays, blockPtr, Nat.add_assoc]
  rw [load_foldl_store_inside (fun i : Fin L.length => fieldOffset L i * cap)
    (fun i => load s.buffer (fieldOffset L i * s.cap) ((L.get i).bytes * s.size)) hk
    (List.mem_finRange _) ?_]
  · rw [length_load] at hk
    rw [drop_take_load hk, get, ptr_eq h, blockPtr, Nat.add_assoc]
  · -- the copies of the other fields end before this one begins, or begin behind it
    intro j _ hj
    rw [length_load]
    have hcopy : (L.get j).bytes * s.size ≤ (L.get j).bytes * cap := Nat.mul_le_mul_left _ hsize
    have hown : (L.get c.field).bytes * s.size ≤ (L.get c.field).bytes * cap :=
      Nat.mul_le_mul_left _ hsize
    rcases lt_trichotomy (j : ℕ) c.field with hlt | heq | hlt
    · have hle := Nat.mul_le_mul_right cap (fieldOffset_add_le j hlt)
      rw [Nat.add_mul] at hle
      omega
    · exact absurd (Fin.ext heq) hj
    · have hle := Nat.mul_le_mul_right cap (fieldOffset_add_le c.field hlt)
      rw [Nat.add_mul] at hle
      omega

/-- The structure has grown: its elements are where they were, and the new flags are clear. -/
structure Grown (L : Layout) (s t : Soa) (cap : ℕ) : Prop where
  size_eq : t.size = s.size
  cap_eq : t.cap = cap
  allocated_eq : t.allocated = true
  bits_eq : t.isSetBuffer = PackedBits.resize s.isSetBuffer (cap * kNumFields L / 8 + 1)
  buffer_eq : t.buffer = copyArrays L s cap

namespace Grown

variable {cap : ℕ}

theorem sound (h : Grown L s t cap) (hs : Sound L s) (hsize : s.size ≤ cap) (hcap : cap < 2 ^ 32)
    (hdvd : kAlignment ∣ cap) : Sound L t where
  size_le := by rw [h.size_eq, h.cap_eq]; exact hsize
  cap_lt := by rw [h.cap_eq]; exact hcap
  cap_dvd := by rw [h.cap_eq]; exact hdvd
  numbers_le := by rw [h.size_eq]; exact hs.numbers_le
  bits_lt := by
    intro _
    rw [h.cap_eq, h.bits_eq, PackedBits.length_resize]
    exact Nat.lt_succ_self _

theorem isFieldSet_eq (h : Grown L s t cap) (hfits : Fits L t id) (c : Cell L) :
    isFieldSet L t c.field id c.index = isFieldSet L s c.field id c.index := by
  have hbit := bit_inside hfits (by
    rw [h.cap_eq, h.bits_eq, PackedBits.length_resize]
    exact Nat.lt_succ_self _) c
  rw [h.bits_eq, PackedBits.length_resize] at hbit
  rw [isFieldSet, isFieldSet, h.bits_eq, PackedBits.test_resize hbit]

theorem holds (h : Grown L s t cap) (hs : Sound L s) (hsize : s.size ≤ cap) (hcap : cap < 2 ^ 32)
    (hdvd : kAlignment ∣ cap) (hA : Holds L s A) : Holds L t { A with capacity := cap } where
  size_eq := h.size_eq.trans hA.size_eq
  cap_eq := h.cap_eq
  content_eq := by
    intro id r hr c
    have hid := hA.lt_size hr
    have hidt : id < t.size := by
      rw [h.size_eq]
      exact hid
    have ht := (h.sound hs hsize hcap hdvd).fits hidt
    rw [← hA.content_eq id r hr c]
    exact congrArg₂ Content.mk
      (get_copyArrays (hs.fits hid) ht hid hsize h.cap_eq h.buffer_eq c) (h.isFieldSet_eq ht c)

end Grown

theorem Live.allocated (h : Live s) (hcap : 0 < s.cap) : s.allocated = true :=
  h.resolve_right hcap.ne'

theorem reserve_of_le {n : ℕ} (hn : n ≤ s.cap) : reserve L s n = some s := if_pos hn

theorem reserve_of_lt (hs : Sound L s) (hlive : Live s) {n : ℕ} (hn : s.cap < n)
    (hsize : s.size ≤ roundUp n) : ∃ t, reserve L s n = some t ∧ Grown L s t (roundUp n) := by
  have hdefined : ¬(s.size ≠ 0 ∧ (s.allocated = false ∨ roundUp n < s.size)) := by
    rintro ⟨h0, hnull | hpast⟩
    · have hle := hs.size_le
      rw [hlive.allocated (by omega)] at hnull
      cases hnull
    · omega
  refine ⟨_, (by rw [reserve, if_neg (by omega), if_neg hdefined]), ?_⟩
  exact ⟨rfl, rfl, rfl, rfl, rfl⟩

/-! ## A new element -/

theorem mem_cells (c : Cell L) : c ∈ cells L := by
  rw [cells, List.mem_flatMap]
  refine ⟨c.field, List.mem_finRange _, ?_⟩
  rw [List.mem_map]
  exact ⟨⟨c.index, mem_indices.mpr c.within⟩, List.mem_attach _ _, rfl⟩

theorem foldl_write (n : ℕ) : ∀ (l : List (Cell L)) (s : Soa),
    l.foldl (fun t c => write L t c.field n c.index (L.get c.field).default) s =
      { s with buffer := l.foldl (fun m c => store m (ptr L s c.field n c.index)
          (L.get c.field).default) s.buffer }
  | [], s => rfl
  | c :: l, s => by
    rw [List.foldl_cons, foldl_write n l]
    rfl

theorem holds_construct (hs : Sound L s) (halloc : s.allocated = true) (hA : Holds L s A)
    (hroom : s.size < s.cap) (hnumbers : (s.size + 1) * kNumFields L ≤ 2 ^ 32)
    (hclear : ∀ c : Cell L, isFieldSet L s c.field s.size c.index = false) :
    ∃ t, construct L s = some t ∧ t.allocated = true ∧ Sound L t ∧
      Holds L t { A with records := A.records ++ [Record.fresh L] } := by
  have hfits : Fits L s s.size := ⟨hroom, hnumbers⟩
  refine ⟨{ s with
      size := s.size + 1
      buffer := (cells L).foldl (fun m c => store m (ptr L s c.field s.size c.index)
        (L.get c.field).default) s.buffer }, ?_, halloc, ?_, ?_⟩
  · rw [construct, if_pos halloc, foldl_write]
  · exact ⟨hroom, hs.cap_lt, hs.cap_dvd, hnumbers, hs.bits_lt⟩
  · refine ⟨?_, hA.cap_eq, fun id r hr c => ?_⟩
    · rw [List.length_append, List.length_singleton, ← hA.size_eq]
    · rcases Nat.lt_trichotomy id A.records.length with hlt | heq | hlt
      · -- the elements before are apart from the new one
        rw [List.getElem?_append_left hlt] at hr
        have hid := hA.lt_size hr
        rw [← hA.content_eq id r hr c]
        refine congrArg₂ Content.mk (load_foldl_store_apart fun d _ => ?_) rfl
        rw [(L.get d.field).length_default]
        have hapart := cell_apart (c := d) (d := c) hfits (hs.fits hid) (.inl hid.ne)
        exact hapart
      · rw [heq, List.getElem?_concat_length] at hr
        obtain rfl : Record.fresh L = r := Option.some.inj hr
        have hid : id = s.size := heq.trans hA.size_eq.symm
        subst hid
        refine congrArg₂ Content.mk ?_ (hclear c)
        have hin : 0 + (L.get c.field).size ≤ (L.get c.field).default.length := by
          rw [(L.get c.field).length_default]
          omega
        have hload := load_foldl_store_inside (m := s.buffer)
          (fun d : Cell L => ptr L s d.field s.size d.index)
          (fun d => (L.get d.field).default) hin (mem_cells c) fun d _ hd => by
            rw [(L.get d.field).length_default]
            exact cell_apart hfits hfits (.inr (Ne.symm hd))
        rw [List.drop_zero, List.take_of_length_le ((L.get c.field).length_default).le] at hload
        exact hload
      · rw [List.getElem?_eq_none (by simp; omega)] at hr
        cases hr

theorem not_full_grown (h : ¬Full s.size s.cap) (hle : s.cap ≤ s.size) : s.cap < grownCap s.cap :=
  not_le.mp fun hc => h ⟨hle, hc⟩

theorem roundUp_grownCap (hs : Sound L s) : roundUp (grownCap s.cap) = grownCap s.cap := by
  have hdvd := hs.cap_dvd
  simp only [grownCap, basic, kAlignment] at hdvd ⊢
  split_ifs
  · exact roundUp_of_dvd (by rw [kAlignment]; omega) (by omega)
  · rfl

theorem holds_add (hs : Sound L s) (hlive : Live s) (hA : Holds L s A)
    (hfit : Full s.size s.cap ∨ ((s.size + 1) * kNumFields L ≤ 2 ^ 32 ∧
      ∀ c : Cell L, isFieldSet L s c.field s.size c.index = false)) :
    ∃ t, add L s = some t ∧ Sound L t ∧ Holds L t A.add := by
  by_cases hfull : Full s.size s.cap
  · have hfullA : Full A.records.length A.capacity := by
      rw [← hA.size_eq, ← hA.cap_eq]
      exact hfull
    refine ⟨s, ?_, hs, ?_⟩
    · rw [add, if_pos hfull]
    · rw [Records.add, if_pos hfullA]
      exact hA
  · have hfullA : ¬Full A.records.length A.capacity := by
      rw [← hA.size_eq, ← hA.cap_eq]
      exact hfull
    obtain ⟨hnumbers, hclear⟩ := hfit.resolve_left hfull
    rw [add, if_neg hfull, Records.add, if_neg hfullA, ← hA.size_eq, ← hA.cap_eq]
    by_cases hle : s.cap ≤ s.size
    · have hgrown := not_full_grown hfull hle
      have hround := roundUp_grownCap hs
      have hsize : s.size ≤ grownCap s.cap := (hs.size_le.trans_lt hgrown).le
      have hltround := roundUp_lt (grownCap s.cap)
      have hdvdround := roundUp_dvd (grownCap s.cap)
      obtain ⟨u, hu, hgrow⟩ := reserve_of_lt hs hlive hgrown (by rw [hround]; exact hsize)
      rw [hround] at hgrow hltround hdvdround
      have hsu := hgrow.sound hs hsize hltround hdvdround
      have hAu := hgrow.holds hs hsize hltround hdvdround hA
      have hroom : u.size < u.cap := by
        rw [hgrow.size_eq, hgrow.cap_eq]
        exact hs.size_le.trans_lt hgrown
      have hnumbersu : (u.size + 1) * kNumFields L ≤ 2 ^ 32 := by
        rw [hgrow.size_eq]
        exact hnumbers
      obtain ⟨t, ht, -, hst, hAt⟩ := holds_construct hsu hgrow.allocated_eq hAu hroom hnumbersu
        fun c => by rw [hgrow.isFieldSet_eq ⟨hroom, hnumbersu⟩, hgrow.size_eq, hclear]
      refine ⟨t, ?_, hst, ?_⟩
      · rw [if_pos hle, hu, Option.bind_some, ht]
      · rw [if_pos hle, hround]
        exact hAt
    · have hroom : s.size < s.cap := not_le.mp hle
      obtain ⟨t, ht, -, hst, hAt⟩ := holds_construct hs
        (hlive.allocated ((Nat.zero_le _).trans_lt hroom)) hA hroom hnumbers hclear
      refine ⟨t, ?_, hst, ?_⟩
      · rw [if_neg hle, Option.bind_some, ht]
      · rw [if_neg hle, hA.cap_eq]
        exact hAt

/-! ## A field as a whole -/

theorem Cell.flat_of_scalar (h : (L.get c.field).dims = []) : c.index = [] := by
  have hwithin := c.within
  rw [Within, h] at hwithin
  exact List.forall₂_nil_right_iff.mp hwithin

theorem Field.bytes_of_scalar {f : Field} (h : f.dims = []) : f.bytes = f.size := by
  rw [bytes, arrayCount, h, List.prod_nil, Nat.mul_one]

theorem fetchField_eq (h : Fits L s id) (i : Fin L.length) :
    fetchField L s id i = load s.buffer (blockPtr L s.cap i id) (L.get i).bytes := by
  rw [fetchField]
  by_cases hdims : (L.get i).dims = []
  · have hzero := ptr_zero h i
    rw [hdims, List.map_nil] at hzero
    rw [if_pos hdims, get, hzero, Field.bytes_of_scalar hdims]
  · rw [if_neg hdims, ptr_zero h]

theorem length_fetchField (h : Fits L s id) (i : Fin L.length) :
    (fetchField L s id i).length = (L.get i).bytes := by
  rw [fetchField_eq h, length_load]

theorem part_fetchField (h : Fits L s id) (c : Cell L) :
    c.part (fetchField L s id c.field) = (content L s id c).value := by
  rw [fetchField_eq h, part_load h, content]

theorem sameShape_assignField (s : Soa) (id : ℕ) (i : Fin L.length) (value : List UInt8) :
    SameShape s (assignField L s id i value) := by
  rw [assignField]
  split_ifs
  · exact sameShape_set s i id [] value
  · exact sameShape_write s i id _ value

theorem content_assignField_self (hs : Sound L s) (hid : id < s.size) (c : Cell L)
    (hv : value.length = (L.get c.field).bytes) :
    content L (assignField L s id c.field value) id c =
      ⟨c.part value, decide ((L.get c.field).dims = []) || (content L s id c).isSet⟩ := by
  by_cases hdims : (L.get c.field).dims = []
  · have hindex := Cell.flat_of_scalar hdims
    rw [Field.bytes_of_scalar hdims] at hv
    have hset := content_set_self hs hid c hv
    rw [hindex] at hset
    have hpart : c.part value = value := by
      rw [Cell.part, Cell.flat, hindex, hdims]
      show (value.drop (0 * _)).take _ = value
      rw [Nat.zero_mul, List.drop_zero, List.take_of_length_le hv.le]
    rw [assignField, if_pos hdims, hset, hpart, decide_eq_true hdims, Bool.true_or]
  · have hget := get_writeBlock_self (hs.fits hid) c hv
    rw [assignField, if_neg hdims, decide_eq_false hdims, Bool.false_or]
    exact congrArg₂ Content.mk hget rfl

theorem content_assignField_of_ne (hs : Sound L s) (hid : id < s.size) (hid' : id' < s.size)
    (hne : id' ≠ id ∨ c.field ≠ i) (hv : value.length = (L.get i).bytes) :
    content L (assignField L s id i value) id' c = content L s id' c := by
  by_cases hdims : (L.get i).dims = []
  · rw [Field.bytes_of_scalar hdims] at hv
    have hcell : Within (L.get i).dims [] := by
      rw [hdims]
      exact List.Forall₂.nil
    have hset := content_set_of_ne (c := ⟨i, [], hcell⟩) (d := c) hs hid hid'
      (hne.imp_right fun hfield heq => hfield (congrArg Cell.field heq)) hv
    rw [assignField, if_pos hdims]
    exact hset
  · have hget := get_writeBlock_of_ne (hs.fits hid) (hs.fits hid') hne hv
    rw [assignField, if_neg hdims]
    exact congrArg₂ Content.mk hget rfl

/-! ## Assignment and exchange -/

variable {σ τ : O → Soa} {o o' p : O} {n : ℕ} {fields : List (Fin L.length)}

/-- The structures with one field of one element assigned. -/
def put (L : Layout) (σ : O → Soa) (o : O) (id : ℕ) (i : Fin L.length) (value : List UInt8) :
    O → Soa :=
  Function.update σ o (assignField L (σ o) id i value)

theorem sameShape_put (σ : O → Soa) (o : O) (id : ℕ) (i : Fin L.length) (value : List UInt8)
    (p : O) : SameShape (σ p) (put L σ o id i value p) := by
  by_cases hp : p = o
  · subst hp
    rw [put, Function.update_self]
    exact sameShape_assignField _ _ _ _
  · rw [put, Function.update_of_ne hp]
    exact SameShape.rfl

theorem content_put_self (hs : Sound L (σ o)) (hid : id < (σ o).size) (c : Cell L)
    (hv : value.length = (L.get c.field).bytes) :
    content L (put L σ o id c.field value o) id c =
      ⟨c.part value, decide ((L.get c.field).dims = []) || (content L (σ o) id c).isSet⟩ := by
  rw [put, Function.update_self, content_assignField_self hs hid c hv]

theorem content_put_of_ne (hs : Sound L (σ o)) (hid : id < (σ o).size) (hn : n < (σ p).size)
    (hne : p ≠ o ∨ n ≠ id ∨ c.field ≠ i) (hv : value.length = (L.get i).bytes) :
    content L (put L σ o id i value p) n c = content L (σ p) n c := by
  by_cases hp : p = o
  · subst hp
    rw [put, Function.update_self,
      content_assignField_of_ne hs hid hn (hne.resolve_left fun hc => hc rfl) hv]
  · rw [put, Function.update_of_ne hp]

/-- The fields of a list were copied: the values, with a mark on those that are no arrays. -/
structure Copied (L : Layout) (fields : List (Fin L.length)) (σ τ : O → Soa) (o : O) (id : ℕ)
    (o' : O) (id' : ℕ) : Prop where
  others : ∀ p, p ≠ o → τ p = σ p
  shape : ∀ p, SameShape (σ p) (τ p)
  copied : ∀ c : Cell L, c.field ∈ fields → content L (τ o) id c =
    ⟨(content L (σ o') id' c).value,
      decide ((L.get c.field).dims = []) || (content L (σ o) id c).isSet⟩
  kept : ∀ p, ∀ n < (σ p).size, ∀ c : Cell L, p ≠ o ∨ n ≠ id ∨ c.field ∉ fields →
    content L (τ p) n c = content L (σ p) n c

theorem Copied.source (h : Copied L fields σ τ o id o' id') (hid' : id' < (σ o').size)
    (c : Cell L) : (content L (τ o') id' c).value = (content L (σ o') id' c).value := by
  by_cases hsame : o' = o ∧ id' = id ∧ c.field ∈ fields
  · obtain ⟨rfl, rfl, hmem⟩ := hsame
    rw [h.copied c hmem]
  · rw [h.kept o' id' hid' c (by tauto)]

theorem Copied.concat (hs : Sound L (σ o)) (hs' : Sound L (σ o')) (hid : id < (σ o).size)
    (hid' : id' < (σ o').size) (h : Copied L fields σ τ o id o' id') (i : Fin L.length) :
    Copied L (fields ++ [i]) σ (put L τ o id i (fetchField L (τ o') id' i)) o id o' id' := by
  have hst : Sound L (τ o) := (h.shape o).sound hs
  have hidt : id < (τ o).size := by rw [(h.shape o).size_eq]; exact hid
  have hfits' : Fits L (τ o') id' :=
    ((h.shape o').sound hs').fits (by rw [(h.shape o').size_eq]; exact hid')
  have hv := length_fetchField hfits' i
  refine ⟨fun p hp => ?_, fun p => ?_, fun c hc => ?_, fun p n hn c hc => ?_⟩
  · rw [put, Function.update_of_ne hp, h.others p hp]
  · exact (h.shape p).trans (sameShape_put τ o id i _ p)
  · by_cases hfield : c.field = i
    · subst hfield
      rw [content_put_self hst hidt c hv, part_fetchField hfits' c, h.source hid' c]
      by_cases hmem : c.field ∈ fields
      · rw [h.copied c hmem, ← Bool.or_assoc, Bool.or_self]
      · rw [h.kept o id hid c (.inr (.inr hmem))]
    · have hmem : c.field ∈ fields := by
        simpa [hfield] using hc
      rw [content_put_of_ne hst hidt hidt (.inr (.inr hfield)) hv, h.copied c hmem]
  · have hnt : n < (τ p).size := by rw [(h.shape p).size_eq]; exact hn
    rw [List.mem_append, List.mem_singleton] at hc
    rw [content_put_of_ne hst hidt hnt (by tauto) hv, h.kept p n hn c (by tauto)]

omit [DecidableEq O] in
theorem copied_nil (σ : O → Soa) (o : O) (id : ℕ) (o' : O) (id' : ℕ) :
    Copied L [] σ σ o id o' id' where
  others := fun _ _ => rfl
  shape := fun _ => SameShape.rfl
  copied := fun _ hc => absurd hc List.not_mem_nil
  kept := fun _ _ _ _ _ => rfl

theorem copied_assign (hs : Sound L (σ o)) (hs' : Sound L (σ o')) (hid : id < (σ o).size)
    (hid' : id' < (σ o').size) :
    Copied L (List.finRange L.length) σ (assign L σ o id o' id') o id o' id' := by
  rw [assign]
  generalize List.finRange L.length = fields
  induction fields using List.reverseRecOn with
  | nil => exact copied_nil σ o id o' id'
  | append_singleton fields i ih =>
    rw [List.foldl_concat]
    exact ih.concat hs hs' hid hid' i

/-- The fields of a list were exchanged: the values, with a mark on those that are no arrays. -/
structure Swapped (L : Layout) (fields : List (Fin L.length)) (σ τ : O → Soa) (o : O) (id : ℕ)
    (o' : O) (id' : ℕ) : Prop where
  others : ∀ p, p ≠ o → p ≠ o' → τ p = σ p
  shape : ∀ p, SameShape (σ p) (τ p)
  first : ∀ c : Cell L, c.field ∈ fields → content L (τ o) id c =
    ⟨(content L (σ o') id' c).value,
      decide ((L.get c.field).dims = []) || (content L (σ o) id c).isSet⟩
  second : ∀ c : Cell L, c.field ∈ fields → content L (τ o') id' c =
    ⟨(content L (σ o) id c).value,
      decide ((L.get c.field).dims = []) || (content L (σ o') id' c).isSet⟩
  kept : ∀ p, ∀ n < (σ p).size, ∀ c : Cell L,
    (p ≠ o ∨ n ≠ id) ∧ (p ≠ o' ∨ n ≠ id') ∨ c.field ∉ fields →
    content L (τ p) n c = content L (σ p) n c

theorem Swapped.concat (hs : Sound L (σ o)) (hs' : Sound L (σ o')) (hid : id < (σ o).size)
    (hid' : id' < (σ o').size) (h : Swapped L fields σ τ o id o' id') {i : Fin L.length}
    (hi : i ∉ fields) : Swapped L (fields ++ [i]) σ (swapField L o id o' id' τ i) o id o' id' := by
  have hfits : Fits L (τ o) id :=
    ((h.shape o).sound hs).fits (by rw [(h.shape o).size_eq]; exact hid)
  have hfits' : Fits L (τ o') id' :=
    ((h.shape o').sound hs').fits (by rw [(h.shape o').size_eq]; exact hid')
  have hv := length_fetchField hfits i
  have hv' := length_fetchField hfits' i
  -- the first field is assigned, and then the second one
  have hstep : swapField L o id o' id' τ i =
      put L (put L τ o id i (fetchField L (τ o') id' i)) o' id' i (fetchField L (τ o) id i) := rfl
  generalize hτ' : put L τ o id i (fetchField L (τ o') id' i) = τ' at hstep
  have hshape : ∀ p, SameShape (σ p) (τ' p) := fun p => by
    rw [← hτ']
    exact (h.shape p).trans (sameShape_put τ o id i _ p)
  have hself : ∀ c : Cell L, c.field = i → content L (τ' o) id c =
      ⟨(content L (σ o') id' c).value,
        decide ((L.get c.field).dims = []) || (content L (σ o) id c).isSet⟩ := by
    rintro c rfl
    rw [← hτ', content_put_self ((h.shape o).sound hs) (by rw [(h.shape o).size_eq]; exact hid) c
      hv', part_fetchField hfits' c, h.kept o' id' hid' c (.inr hi), h.kept o id hid c (.inr hi)]
  have hne : ∀ p, ∀ n < (σ p).size, ∀ c : Cell L, p ≠ o ∨ n ≠ id ∨ c.field ≠ i →
      content L (τ' p) n c = content L (τ p) n c := fun p n hn c hc => by
    rw [← hτ', content_put_of_ne ((h.shape o).sound hs) (by rw [(h.shape o).size_eq]; exact hid)
      (by rw [(h.shape p).size_eq]; exact hn) hc hv']
  have hs₁ : Sound L (τ' o') := (hshape o').sound hs'
  have hid₁ : id' < (τ' o').size := by rw [(hshape o').size_eq]; exact hid'
  rw [hstep]
  refine ⟨fun p hp hp' => ?_, fun p => ?_, fun c hc => ?_, fun c hc => ?_, fun p n hn c hc => ?_⟩
  · rw [put, Function.update_of_ne hp', ← hτ', put, Function.update_of_ne hp, h.others p hp hp']
  · exact (hshape p).trans (sameShape_put τ' o' id' i _ p)
  · rw [List.mem_append, List.mem_singleton] at hc
    by_cases hfield : c.field = i
    · by_cases hsame : o = o' ∧ id = id'
      · obtain ⟨rfl, rfl⟩ := hsame
        subst hfield
        rw [content_put_self hs₁ hid₁ c hv, part_fetchField hfits c, hself c rfl,
          h.kept o id hid c (.inr hi), ← Bool.or_assoc, Bool.or_self]
      · rw [content_put_of_ne hs₁ hid₁ (by rw [(hshape o).size_eq]; exact hid) (by tauto) hv,
          hself c hfield]
    · rw [content_put_of_ne hs₁ hid₁ (by rw [(hshape o).size_eq]; exact hid)
        (.inr (.inr hfield)) hv, hne o id hid c (.inr (.inr hfield)),
        h.first c (hc.resolve_right hfield)]
  · rw [List.mem_append, List.mem_singleton] at hc
    by_cases hfield : c.field = i
    · have hflag : (content L (τ' o') id' c).isSet = (content L (σ o') id' c).isSet ∨
          (content L (τ' o') id' c).isSet =
            (decide ((L.get c.field).dims = []) || (content L (σ o') id' c).isSet) := by
        by_cases hsame : o' = o ∧ id' = id
        · obtain ⟨rfl, rfl⟩ := hsame
          exact .inr (congrArg Content.isSet (hself c hfield))
        · refine .inl (congrArg Content.isSet ?_)
          rw [hne o' id' hid' c (by tauto), h.kept o' id' hid' c (.inr (hfield ▸ hi))]
      subst hfield
      rw [content_put_self hs₁ hid₁ c hv, part_fetchField hfits c, h.kept o id hid c (.inr hi)]
      rcases hflag with hflag | hflag
      · rw [hflag]
      · rw [hflag, ← Bool.or_assoc, Bool.or_self]
    · rw [content_put_of_ne hs₁ hid₁ (by rw [(hshape o').size_eq]; exact hid')
        (.inr (.inr hfield)) hv, hne o' id' hid' c (.inr (.inr hfield)),
        h.second c (hc.resolve_right hfield)]
  · rw [List.mem_append, List.mem_singleton] at hc
    rw [content_put_of_ne hs₁ hid₁ (by rw [(hshape p).size_eq]; exact hn) (by tauto) hv,
      hne p n hn c (by tauto), h.kept p n hn c (by tauto)]

omit [DecidableEq O] in
theorem swapped_nil (σ : O → Soa) (o : O) (id : ℕ) (o' : O) (id' : ℕ) :
    Swapped L [] σ σ o id o' id' where
  others := fun _ _ _ => rfl
  shape := fun _ => SameShape.rfl
  first := fun _ hc => absurd hc List.not_mem_nil
  second := fun _ hc => absurd hc List.not_mem_nil
  kept := fun _ _ _ _ _ => rfl

theorem swapped_swap (hs : Sound L (σ o)) (hs' : Sound L (σ o')) (hid : id < (σ o).size)
    (hid' : id' < (σ o').size) :
    Swapped L (List.finRange L.length) σ (swap L σ o id o' id') o id o' id' := by
  have hnodup := List.nodup_finRange L.length
  rw [swap]
  generalize List.finRange L.length = fields at hnodup ⊢
  induction fields using List.reverseRecOn with
  | nil => exact swapped_nil σ o id o' id'
  | append_singleton fields i ih =>
    rw [List.nodup_append] at hnodup
    rw [List.foldl_concat]
    refine (ih hnodup.1).concat hs hs' hid hid' fun hi => ?_
    exact hnodup.2.2 i hi i (List.mem_singleton_self i) rfl

/-! ## Runs -/

/-- The structures that were not moved from show their records. -/
def Shows (σ : O → Soa) (A : O → Records L) : Prop :=
  ∀ o, Live (σ o) → Sound L (σ o) ∧ Holds L (σ o) (A o)

/-- The flags of an assignment: a field that is no array is set in the source, and an array has the
flags of the source already. -/
def AssignsFlags (L : Layout) (s : Soa) (id : ℕ) (s' : Soa) (id' : ℕ) : Prop :=
  ∀ c : Cell L, isFieldSet L s' c.field id' c.index =
    (decide ((L.get c.field).dims = []) || isFieldSet L s c.field id c.index)

/-- An operation that is allowed: it uses what is an element, and a structure that was not moved
from; a new element has no flags left, and its numbers fit; a capacity can be rounded up; and an
assignment or an exchange does not have to move a flag. -/
def Fit (L : Layout) (σ : O → Soa) : Op L O → Prop
  | .add o => Live (σ o) ∧ (Full (σ o).size (σ o).cap ∨
      (((σ o).size + 1) * kNumFields L ≤ 2 ^ 32 ∧
        ∀ c : Cell L, isFieldSet L (σ o) c.field (σ o).size c.index = false))
  | .set o id c value => Accessible (σ o) id ∧ value.length = (L.get c.field).size
  | .clear _ => True
  | .reserve o newCap => Live (σ o) ∧
      (newCap.toNat ≤ 2 ^ 32 - kAlignment ∨ newCap.toNat ≤ (σ o).cap ∨ (σ o).size = 0)
  | .assign o id o' id' => Accessible (σ o) id ∧ Accessible (σ o') id' ∧
      AssignsFlags L (σ o) id (σ o') id'
  | .swap o id o' id' => Accessible (σ o) id ∧ Accessible (σ o') id' ∧
      AssignsFlags L (σ o) id (σ o') id' ∧ AssignsFlags L (σ o') id' (σ o) id
  | .move o o' => o ≠ o'
  | .reset _ => True

theorem Shows.update {A : O → Records L} (h : Shows σ A) {B : Records L}
    (hs : Live s → Sound L s ∧ Holds L s B) :
    Shows (Function.update σ o s) (Function.update A o B) := by
  intro p hp
  by_cases ho : p = o
  · subst ho
    rw [Function.update_self] at hp ⊢
    rw [Function.update_self]
    exact hs hp
  · rw [Function.update_of_ne ho] at hp ⊢
    rw [Function.update_of_ne ho]
    exact h p hp

theorem holds_replace (h : Holds L s A) (hshape : SameShape s t) {r : Record L}
    (hself : ∀ c, content L t id c = r c)
    (hothers : ∀ n < s.size, n ≠ id → ∀ c, content L t n c = content L s n c) :
    Holds L t (A.replace id r) where
  size_eq := by
    rw [hshape.size_eq, h.size_eq, Records.replace, List.length_set]
  cap_eq := hshape.cap_eq.trans h.cap_eq
  content_eq := by
    intro n r' hr c
    rw [Records.replace, List.getElem?_set] at hr
    split_ifs at hr with heq hlt
    · obtain rfl : r = r' := Option.some.inj hr
      rw [← heq, hself c]
    · rw [hothers n (h.lt_size hr) (Ne.symm heq) c, h.content_eq n r' hr c]

theorem holds_replace_both (h : Holds L s A) (hshape : SameShape s t) {r r' : Record L}
    (hfirst : ∀ c, content L t id c = r' c) (hsecond : ∀ c, content L t id' c = r c)
    (hothers : ∀ n < s.size, n ≠ id → n ≠ id' → ∀ c, content L t n c = content L s n c) :
    Holds L t ((A.replace id r').replace id' r) where
  size_eq := by
    simp only [hshape.size_eq, h.size_eq, Records.replace, List.length_set]
  cap_eq := hshape.cap_eq.trans h.cap_eq
  content_eq := by
    intro n r'' hr c
    simp only [Records.replace, List.getElem?_set] at hr
    split_ifs at hr with heq' hlt' heq hlt
    · rw [← heq', hsecond c, ← Option.some.inj hr]
    · rw [← heq, hfirst c, ← Option.some.inj hr]
    · rw [hothers n (h.lt_size hr) (Ne.symm heq) (Ne.symm heq') c, h.content_eq n r'' hr c]

theorem Accessible.live (h : Accessible s id) : Live s := .inl h.2

theorem Holds.record (h : Holds L s A) (hid : id < s.size) :
    ∃ r, A.records[id]? = some r ∧ ∀ c, content L s id c = r c := by
  rw [h.size_eq] at hid
  have hr := List.getElem?_eq_getElem hid
  exact ⟨_, hr, h.content_eq id _ hr⟩

theorem Content.ext_assigned {s' : Soa} (h : AssignsFlags L s id s' id') (c : Cell L) :
    ⟨(content L s' id' c).value,
      decide ((L.get c.field).dims = []) || (content L s id c).isSet⟩ = content L s' id' c :=
  congrArg (Content.mk _) (h c).symm

/-- **One operation that is allowed.** -/
theorem step_fit {A : O → Records L} (h : Shows σ A) (op : Op L O) (hfit : Fit L σ op) :
    ∃ τ, step L σ op = some τ ∧ Shows τ (recordStep A op) := by
  cases op with
  | add o =>
    obtain ⟨hlive, hadd⟩ := hfit
    obtain ⟨hs, hA⟩ := h o hlive
    obtain ⟨t, ht, hst, hAt⟩ := holds_add hs hlive hA hadd
    refine ⟨Function.update σ o t, ?_, h.update fun _ => ⟨hst, hAt⟩⟩
    rw [step, ht, Option.map_some]
  | set o id c value =>
    obtain ⟨hid, hv⟩ := hfit
    obtain ⟨hs, hA⟩ := h o hid.live
    refine ⟨_, if_pos ⟨hid, hv⟩, h.update fun _ => ⟨?_, holds_set hs hA hid.1 hv⟩⟩
    exact (sameShape_set _ _ _ _ _).sound hs
  | clear o =>
    refine ⟨_, rfl, h.update fun hlive => ?_⟩
    obtain ⟨hs, hA⟩ := h o hlive
    refine ⟨⟨Nat.zero_le _, hs.cap_lt, hs.cap_dvd, ?_, hs.bits_lt⟩, ⟨rfl, hA.cap_eq, ?_⟩⟩
    · show 0 * _ ≤ _
      omega
    · intro id r hr
      cases hr
  | reserve o newCap =>
    obtain ⟨hlive, hcap⟩ := hfit
    obtain ⟨hs, hA⟩ := h o hlive
    by_cases hle : newCap.toNat ≤ (σ o).cap
    · refine ⟨Function.update σ o (σ o), ?_, h.update fun _ => ⟨hs, ?_⟩⟩
      · rw [step, reserve_of_le hle, Option.map_some]
      · rw [Records.reserve, if_pos (hA.cap_eq ▸ hle)]
        exact hA
    · have hsize : (σ o).size ≤ roundUp newCap.toNat := by
        have hsize_le := hs.size_le
        rcases hcap with hlow | hlow | hzero
        · have hround := le_roundUp hlow
          omega
        · omega
        · omega
      obtain ⟨t, ht, hgrow⟩ := reserve_of_lt hs hlive (not_le.mp hle) hsize
      have hround := roundUp_lt newCap.toNat
      have hdvd := roundUp_dvd newCap.toNat
      refine ⟨Function.update σ o t, ?_, h.update fun _ => ⟨hgrow.sound hs hsize hround hdvd, ?_⟩⟩
      · rw [step, ht, Option.map_some]
      · rw [Records.reserve, if_neg (hA.cap_eq ▸ hle)]
        exact hgrow.holds hs hsize hround hdvd hA
  | assign o id o' id' =>
    obtain ⟨hid, hid', hflags⟩ := hfit
    obtain ⟨hs, hA⟩ := h o hid.live
    obtain ⟨hs', hA'⟩ := h o' hid'.live
    obtain ⟨r', hr', hcontent'⟩ := hA'.record hid'.1
    have hcopied := copied_assign hs hs' hid.1 hid'.1
    refine ⟨_, if_pos ⟨hid, hid'⟩, ?_⟩
    simp only [recordStep, hr']
    intro p hp
    by_cases ho : p = o
    · subst ho
      rw [Function.update_self]
      refine ⟨(hcopied.shape p).sound hs, holds_replace hA (hcopied.shape p) (fun c => ?_)
        fun n hn hne c => hcopied.kept p n hn c (.inr (.inl hne))⟩
      rw [hcopied.copied c (List.mem_finRange _), Content.ext_assigned hflags, hcontent' c]
    · rw [Function.update_of_ne ho, hcopied.others p ho]
      rw [hcopied.others p ho] at hp
      exact h p hp
  | swap o id o' id' =>
    obtain ⟨hid, hid', hflags, hflags'⟩ := hfit
    obtain ⟨hs, hA⟩ := h o hid.live
    obtain ⟨hs', hA'⟩ := h o' hid'.live
    obtain ⟨r, hr, hcontent⟩ := hA.record hid.1
    obtain ⟨r', hr', hcontent'⟩ := hA'.record hid'.1
    have hswapped := swapped_swap hs hs' hid.1 hid'.1
    refine ⟨_, if_pos ⟨hid, hid'⟩, ?_⟩
    have hfirst : ∀ c, content L (swap L σ o id o' id' o) id c = r' c := fun c => by
      rw [hswapped.first c (List.mem_finRange _), Content.ext_assigned hflags, hcontent' c]
    have hsecond : ∀ c, content L (swap L σ o id o' id' o') id' c = r c := fun c => by
      rw [hswapped.second c (List.mem_finRange _), Content.ext_assigned hflags', hcontent c]
    simp only [recordStep, hr, hr']
    by_cases hoo : o' = o
    · -- both elements are of one structure
      subst hoo
      rw [Function.update_idem, Function.update_self]
      intro p hp
      by_cases ho : p = o'
      · subst ho
        rw [Function.update_self]
        exact ⟨(hswapped.shape p).sound hs, holds_replace_both hA (hswapped.shape p) hfirst hsecond
          fun n hn hne hne' c => hswapped.kept p n hn c (.inl ⟨.inr hne, .inr hne'⟩)⟩
      · rw [Function.update_of_ne ho, hswapped.others p ho ho]
        rw [hswapped.others p ho ho] at hp
        exact h p hp
    · rw [Function.update_of_ne hoo]
      intro p hp
      by_cases ho' : p = o'
      · subst ho'
        rw [Function.update_self]
        exact ⟨(hswapped.shape p).sound hs', holds_replace hA' (hswapped.shape p) hsecond
          fun n hn hne c => hswapped.kept p n hn c (.inl ⟨.inl hoo, .inr hne⟩)⟩
      · rw [Function.update_of_ne ho']
        by_cases ho : p = o
        · subst ho
          rw [Function.update_self]
          exact ⟨(hswapped.shape p).sound hs, holds_replace hA (hswapped.shape p) hfirst
            fun n hn hne c => hswapped.kept p n hn c (.inl ⟨.inr hne, .inl ho'⟩)⟩
        · rw [Function.update_of_ne ho, hswapped.others p ho ho']
          rw [hswapped.others p ho ho'] at hp
          exact h p hp
  | move o o' =>
    refine ⟨_, if_neg hfit, (h.update fun hlive => h o' hlive).update fun hlive => ?_⟩
    -- only a structure without a buffer is as good as new
    have hcap : (σ o').cap = 0 := hlive.resolve_left Bool.false_ne_true
    obtain ⟨hs', hA'⟩ := h o' (.inr hcap)
    have hsize : (σ o').size = 0 := Nat.le_zero.mp (hcap ▸ hs'.size_le)
    refine ⟨⟨hs'.size_le, hs'.cap_lt, hs'.cap_dvd, hs'.numbers_le, fun hpos => ?_⟩,
      ⟨hsize, hcap, fun id r hr => ?_⟩⟩
    · exact absurd hcap hpos.ne'
    · cases hr
  | reset o => exact ⟨_, rfl, h.update fun _ => ⟨sound_new, holds_new⟩⟩

/-- The structures before the first operation. -/
def new : O → Soa := fun _ => {}

/-- **Every structure shows its records**, in every run whose operations are allowed. -/
theorem run_holds_records (L : Layout) (ops : List (Op L O))
    (hfit : Monitor.Meets (step L) (Fit L) new ops) :
    ∃ σ, Monitor.run (step L) new ops = some σ ∧
      ∀ o, Live (σ o) → Holds L (σ o) (ops.foldl recordStep (fun _ => {}) o) := by
  have hrun : ∀ (ops : List (Op L O)) (σ : O → Soa) (A : O → Records L), Shows σ A →
      Monitor.Meets (step L) (Fit L) σ ops →
      ∃ τ, Monitor.run (step L) σ ops = some τ ∧ Shows τ (ops.foldl recordStep A) := by
    intro ops
    induction ops with
    | nil => exact fun σ A h _ => ⟨σ, rfl, h⟩
    | cons op ops ih =>
      rintro σ A h ⟨hop, hrest⟩
      obtain ⟨τ, hτ, hshows⟩ := step_fit h op hop
      obtain ⟨υ, hυ, hend⟩ := ih τ _ hshows (hrest τ hτ)
      exact ⟨υ, (Monitor.run_cons_of hτ).trans hυ, hend⟩
  obtain ⟨σ, hσ, hshows⟩ := hrun ops new (fun _ => {}) (fun _ _ => ⟨sound_new, holds_new⟩) hfit
  exact ⟨σ, hσ, fun o hlive => (hshows o hlive).2⟩

/-! ## Two runs -/

/-- The field `Topology`. -/
def topology : Cell eventStateInfo := ⟨⟨0, by decide⟩, [], List.Forall₂.nil⟩

/-- An element with a field that is set, and another one in its place after a `Clear`. -/
def clearedOps : List (Op eventStateInfo Unit) :=
  [.add (), .set () 0 topology [4, 0, 0, 0], .clear (), .add ()]

/-- **The flags of an element outlive a `Clear`.** -/
theorem clearedOps_not_holds : ∃ σ, Monitor.run (step eventStateInfo) new clearedOps = some σ ∧
    Live (σ ()) ∧ ¬Holds eventStateInfo (σ ()) (clearedOps.foldl recordStep (fun _ => {}) ()) := by
  have hrun : (Monitor.run (step eventStateInfo) new clearedOps).map (fun σ => ((σ ()).allocated,
      isFieldSet eventStateInfo (σ ()) topology.field 0 topology.index)) = some (true, true) := by
    decide +kernel
  obtain ⟨σ, hσ, hflags⟩ := Option.map_eq_some_iff.mp hrun
  refine ⟨σ, hσ, .inl (congrArg Prod.fst hflags), fun h => ?_⟩
  have hrecord : (clearedOps.foldl recordStep (fun _ => {}) ()).records[0]? =
      some (Record.fresh eventStateInfo) := rfl
  have hset : (content eventStateInfo (σ ()) 0 topology).isSet = true := congrArg Prod.snd hflags
  rw [h.content_eq 0 _ hrecord topology] at hset
  cases hset

/-- An element with a field that is set. -/
def setOps : List (Op eventStateInfo Unit) := [.add (), .set () 0 topology [4, 0, 0, 0]]

theorem meets_setOps : Monitor.Meets (step eventStateInfo) (Fit eventStateInfo) new setOps := by
  refine ⟨⟨.inr rfl, .inr ⟨by decide, fun c => ?_⟩⟩, fun σ hσ => ?_⟩
  · exact PackedBits.test_nil _
  · have hrun : (step eventStateInfo (new : Unit → Soa) (.add ())).map (fun σ =>
        ((σ ()).size, (σ ()).allocated)) = some (1, true) := by
      decide +kernel
    rw [hσ, Option.map_some] at hrun
    have hshape := Option.some.inj hrun
    have hsize : (σ ()).size = 1 := congrArg Prod.fst hshape
    refine ⟨⟨⟨?_, congrArg Prod.snd hshape⟩, rfl⟩, fun _ _ => trivial⟩
    rw [Soa.IsValidId, hsize]
    decide

/-- After the operations each array holds its records. -/
theorem setOps_holds : ∃ σ, Monitor.run (step eventStateInfo) new setOps = some σ ∧
    ∀ o, Live (σ o) →
      Holds eventStateInfo (σ o) (setOps.foldl recordStep (fun _ => {}) o) :=
  run_holds_records eventStateInfo setOps meets_setOps

end StructOfArrays

end Dive
