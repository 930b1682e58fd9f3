import Dive.Adreno.FieldValues
import Dive.Adreno.RegisterTables
import Mathlib.Tactic.IntervalCases

/-!
# The entries of the register tables

* `TablesFaithful`: each register of the domain has its entry, `GetRegInfo` returns it exactly under
  the variants that the register is declared for, and no index is past the end.
* `returned_iff`: which entry `GetRegInfo` returns.
* **`tablesFaithful_iff`**: the tables are faithful exactly under `TablesClear`, which says of each
  register where it is written, with what, and what else is written there.
-/

namespace Dive.Adreno

/-! ## What should be written -/

/-- The variants that a register is declared for: its own, or else those of its array. -/
def RegisterPlace.declaredVariants : RegisterPlace → String
  | .plain reg => reg.variants.getD ""
  | .element array _ _ reg =>
    if reg.variants.getD "" = "" then array.variants.getD "" else reg.variants.getD ""
  | .single array _ => array.variants.getD ""
  | .pair array _ => array.variants.getD ""

namespace RegisterPlace

variable (place : RegisterPlace)

/-- The register is declared for a variant. -/
def DeclaredFor (v : GPUVariant) : Prop :=
  Declares (getGPUVariantsBitField place.declaredVariants) v

/-- The offset. -/
def offset : ℕ := place.attributes.offset

/-- The bits of the variants that the register is written for. -/
def bits : ℕ := getGPUVariantsBitField place.attributes.variants

/-- The register is written for a variant. -/
def WrittenFor (v : GPUVariant) : Prop := Declares place.bits v

instance (v : GPUVariant) : Decidable (place.DeclaredFor v) := by
  unfold DeclaredFor
  infer_instance

instance (v : GPUVariant) : Decidable (place.WrittenFor v) := by
  unfold WrittenFor
  infer_instance

end RegisterPlace

/-- The bit fields of the bitset that a register has as its type. -/
def typeFields (db : Database) (domain : Domain) (type : Option String) : List Bitfield :=
  (((customType type).bind (db.bitset domain)).map Bitset.bitfields).getD []

/-- The bit fields of a register: those of its bitset and its own. -/
def declaredBitfields (db : Database) (domain : Domain) (attributes : RegAttributes) :
    List Bitfield :=
  typeFields db domain attributes.type ++ attributes.bitfields

/-- **The tables have what the domain declares.** Entries are told apart by the register that they
are written for. -/
structure TablesFaithful (db : Database) (domain : Domain) (calls : List (RegisterCall RegInfo)) :
    Prop where
  inside : ∀ call ∈ calls, call.variants = 0 → call.offset < regInfoSize domain
  offsets : List.Forall₂ (fun place call => call.offset = place.offset) (places domain) calls
  entries : List.Forall₂
    (fun place call => describe db place.attributes (declaredBitfields db domain place.attributes)
      call.entry.enumHandle = some call.entry)
    (places domain) calls
  returned : ∀ k place, (places domain)[k]? = some place → ∀ v,
    (place.offset < 2 ^ 32 ∧
      getRegInfo (registerTables (regInfoSize domain) (numbered calls)) (some v)
        (UInt32.ofNat place.offset) = some (some k)) ↔ place.DeclaredFor v

/-! ## When they have it -/

/-- What is written with these bits for an offset is found for `v` at offset `o`; the keys of the
variants have the lower 25 bits of an offset. -/
def Hits (bits offset : ℕ) (v : GPUVariant) (o : ℕ) : Prop :=
  bits = 0 ∧ offset = o ∨ bits.testBit v.index = true ∧ offset % 2 ^ 25 = o % 2 ^ 25

/-- Where the registers number `k` and `l` are both found, the first is returned: it is for all
variants and the second is not, or both are in one table and the first is written later. -/
def Beats (bits k otherBits l : ℕ) : Prop :=
  bits = 0 ∧ (otherBits ≠ 0 ∨ l < k) ∨ bits ≠ 0 ∧ otherBits ≠ 0 ∧ l < k

instance (bits offset : ℕ) (v : GPUVariant) (o : ℕ) : Decidable (Hits bits offset v o) := by
  unfold Hits
  infer_instance

instance (bits k otherBits l : ℕ) : Decidable (Beats bits k otherBits l) := by
  unfold Beats
  infer_instance

/-- **Nothing that is written is in the way.** -/
structure TablesClear (domain : Domain) : Prop where
  fields : ∀ place ∈ places domain,
    place.attributes.bitfields = [] ∨ customType place.attributes.type = none
  offsets : ∀ place ∈ places domain, place.offset < regInfoSize domain ∧ place.offset < 2 ^ 32
  variants : ∀ place ∈ places domain, ∀ v, place.DeclaredFor v → place.WrittenFor v
  alone : ∀ k (place : RegisterPlace), (places domain)[k]? = some place →
    ∀ l (other : RegisterPlace), (places domain)[l]? = some other → l ≠ k →
      ∀ v, place.DeclaredFor v → Hits other.bits other.offset v place.offset →
        Beats place.bits k other.bits l
  excess : ∀ k (place : RegisterPlace), (places domain)[k]? = some place →
    ∀ v, place.WrittenFor v → ¬ place.DeclaredFor v →
      ∃ l, ∃ other : RegisterPlace, (places domain)[l]? = some other ∧ l ≠ k ∧
        Hits other.bits other.offset v place.offset ∧ Beats other.bits l place.bits k

/-! ## Keys -/

theorem bit_lt (v : GPUVariant) : 0 < 2 ^ v.index ∧ 2 ^ v.index < 2 ^ 7 :=
  ⟨Nat.two_pow_pos _, Nat.pow_lt_pow_right (by decide) v.index_lt⟩

theorem variantKey_eq (offset : ℕ) (v : GPUVariant) :
    variantKey offset v = offset % 2 ^ 25 * 128 + 2 ^ v.index := by
  obtain ⟨hpos, hlt⟩ := bit_lt v
  rw [variantKey, kGPUVariantsBits, Nat.one_shiftLeft, ← Nat.shiftLeft_add_eq_or_of_lt hlt,
    Nat.shiftLeft_eq]
  generalize 2 ^ v.index = bit at *
  omega

theorem variantKey_inj {o o' : ℕ} {v v' : GPUVariant} :
    variantKey o v = variantKey o' v' ↔ v = v' ∧ o % 2 ^ 25 = o' % 2 ^ 25 := by
  obtain ⟨hpos, hlt⟩ := bit_lt v
  obtain ⟨hpos', hlt'⟩ := bit_lt v'
  rw [variantKey_eq, variantKey_eq]
  constructor
  · intro h
    have hpow : 2 ^ v.index = 2 ^ v'.index := by
      generalize 2 ^ v.index = bit at *
      generalize 2 ^ v'.index = bit' at *
      omega
    refine ⟨GPUVariant.index_injective (Nat.pow_right_injective (le_refl 2) hpow), ?_⟩
    rw [hpow] at h
    omega
  · rintro ⟨rfl, h⟩
    rw [h]

/-! ## What is returned -/

section Returned

variable {α : Type} {calls : List (RegisterCall α)}

theorem numbered_getElem? (k : ℕ) :
    (numbered calls)[k]? = (calls[k]?).map fun call => ⟨call.offset, call.variants, k⟩ := by
  rw [numbered, List.getElem?_map, List.getElem?_zipIdx, Option.map_map, Nat.zero_add]
  rfl

theorem pairwise_numbered : (numbered calls).Pairwise fun call later => call.entry < later.entry := by
  rw [List.pairwise_iff_getElem]
  intro i j hi hj hij
  have hentry : ∀ k (hk : k < (numbered calls).length), ((numbered calls)[k]).entry = k := by
    intro k hk
    have hget := List.getElem?_eq_getElem hk
    rw [numbered_getElem?] at hget
    obtain ⟨call, _, hcall⟩ := Option.map_eq_some_iff.mp hget
    rw [← hcall]
  rw [hentry i hi, hentry j hj]
  exact hij

theorem mem_numbered_iff {call : RegisterCall ℕ} : call ∈ numbered calls ↔
    ∃ original, calls[call.entry]? = some original ∧ call.offset = original.offset ∧
      call.variants = original.variants := by
  rw [List.mem_iff_getElem?]
  constructor
  · rintro ⟨k, hk⟩
    rw [numbered_getElem?] at hk
    obtain ⟨original, horiginal, rfl⟩ := Option.map_eq_some_iff.mp hk
    exact ⟨original, horiginal, rfl, rfl⟩
  · rintro ⟨original, horiginal, hoffset, hvariants⟩
    refine ⟨call.entry, ?_⟩
    rw [numbered_getElem?, horiginal, Option.map_some, ← hoffset, ← hvariants]

theorem mem_plainWrites_iff {o k : ℕ} : (o, k) ∈ plainWrites (numbered calls) ↔
    ∃ call, calls[k]? = some call ∧ call.variants = 0 ∧ call.offset = o := by
  simp only [plainWrites, List.mem_map, List.mem_filter, decide_eq_true_eq, Prod.mk.injEq]
  constructor
  · rintro ⟨call, ⟨hmem, hplain⟩, hoffset, rfl⟩
    obtain ⟨original, horiginal, ho, hv⟩ := mem_numbered_iff.mp hmem
    exact ⟨original, horiginal, hv ▸ hplain, ho ▸ hoffset⟩
  · rintro ⟨call, hcall, hplain, hoffset⟩
    exact ⟨⟨call.offset, call.variants, k⟩, ⟨mem_numbered_iff.mpr ⟨call, hcall, rfl, rfl⟩, hplain⟩,
      hoffset, rfl⟩

theorem mem_variantWrites_iff {o k : ℕ} {v : GPUVariant} :
    (variantKey o v, k) ∈ variantWrites (numbered calls) ↔
      ∃ call, calls[k]? = some call ∧ call.variants.testBit v.index = true ∧
        call.offset % 2 ^ 25 = o % 2 ^ 25 := by
  simp only [variantWrites, RegisterCall.variantWrites, List.mem_flatMap, List.mem_map,
    List.mem_filter, Prod.mk.injEq, variantKey_inj]
  constructor
  · rintro ⟨call, hmem, w, ⟨_, hbit⟩, ⟨rfl, hoffset⟩, rfl⟩
    obtain ⟨original, horiginal, ho, hv⟩ := mem_numbered_iff.mp hmem
    exact ⟨original, horiginal, hv ▸ hbit, ho ▸ hoffset⟩
  · rintro ⟨call, hcall, hbit, hoffset⟩
    exact ⟨⟨call.offset, call.variants, k⟩, mem_numbered_iff.mpr ⟨call, hcall, rfl, rfl⟩, v,
      ⟨v.mem_all, hbit⟩, ⟨rfl, hoffset⟩, rfl⟩

theorem pairwise_plainWrites :
    (plainWrites (numbered calls)).Pairwise fun write later => write.2 ≤ later.2 := by
  rw [plainWrites, List.pairwise_map]
  apply List.Pairwise.filter
  exact pairwise_numbered.imp le_of_lt

theorem pairwise_variantWrites :
    (variantWrites (numbered calls)).Pairwise fun write later => write.2 ≤ later.2 := by
  rw [variantWrites, List.pairwise_flatMap]
  have hentry : ∀ call : RegisterCall ℕ, ∀ write ∈ call.variantWrites, write.2 = call.entry := by
    intro call write hwrite
    obtain ⟨v, _, rfl⟩ := List.mem_map.mp hwrite
    rfl
  constructor
  · intro call _
    apply List.pairwise_of_forall_mem_list
    intro write hwrite later hlater
    exact le_of_eq ((hentry call write hwrite).trans (hentry call later hlater).symm)
  · apply pairwise_numbered.imp
    intro call later hlt write hwrite other hother
    rw [hentry call write hwrite, hentry later other hother]
    exact le_of_lt hlt

theorem ne_zero_of_testBit {bits i : ℕ} (h : bits.testBit i = true) : bits ≠ 0 := by
  rintro rfl
  rw [Nat.zero_testBit] at h
  cases h

theorem plainReturned_iff {v : GPUVariant} {o m k : ℕ}
    (hplain : written (plainWrites (numbered calls)) o = some m) :
    m = k ↔ ∃ call, calls[k]? = some call ∧ Hits call.variants call.offset v o ∧
      ∀ l other, calls[l]? = some other → l ≠ k → Hits other.variants other.offset v o →
        Beats call.variants k other.variants l := by
  obtain ⟨hmem, hgreatest⟩ := (written_eq_some_iff_of_pairwise pairwise_plainWrites).mp hplain
  obtain ⟨first, hfirst, hzero, hoffset⟩ := mem_plainWrites_iff.mp hmem
  constructor
  · rintro rfl
    refine ⟨first, hfirst, .inl ⟨hzero, hoffset⟩, fun l other hother hne hhits => .inl ⟨hzero, ?_⟩⟩
    rcases hhits with ⟨hotherZero, hotherOffset⟩ | ⟨hbit, _⟩
    · have hle := hgreatest l (mem_plainWrites_iff.mpr ⟨other, hother, hotherZero, hotherOffset⟩)
      exact .inr (lt_of_le_of_ne hle hne)
    · exact .inl (ne_zero_of_testBit hbit)
  · rintro ⟨call, hcall, hhits, hbeats⟩
    by_contra hne
    rcases hbeats m first hfirst hne (.inl ⟨hzero, hoffset⟩) with ⟨hcallZero, hlater⟩ | hvariant
    · have hlt : m < k := hlater.resolve_left fun h => h hzero
      rcases hhits with ⟨_, hcallOffset⟩ | ⟨hbit, _⟩
      · have hle := hgreatest k (mem_plainWrites_iff.mpr ⟨call, hcall, hcallZero, hcallOffset⟩)
        omega
      · exact ne_zero_of_testBit hbit hcallZero
    · exact hvariant.2.1 hzero

theorem variantReturned_iff {v : GPUVariant} {o k : ℕ}
    (hplain : written (plainWrites (numbered calls)) o = none) :
    written (variantWrites (numbered calls)) (variantKey o v) = some k ↔
      ∃ call, calls[k]? = some call ∧ Hits call.variants call.offset v o ∧
        ∀ l other, calls[l]? = some other → l ≠ k → Hits other.variants other.offset v o →
          Beats call.variants k other.variants l := by
  have hno : ∀ (l : ℕ) (call : RegisterCall α), calls[l]? = some call → ¬ (call.variants = 0 ∧ call.offset = o) := by
    intro l call hcall hzero
    exact written_eq_none_iff.mp hplain (o, l) (mem_plainWrites_iff.mpr ⟨call, hcall, hzero⟩) rfl
  rw [written_eq_some_iff_of_pairwise pairwise_variantWrites]
  constructor
  · rintro ⟨hmem, hgreatest⟩
    obtain ⟨call, hcall, hbit, hoffset⟩ := mem_variantWrites_iff.mp hmem
    refine ⟨call, hcall, .inr ⟨hbit, hoffset⟩, fun l other hother hne hhits => ?_⟩
    rcases hhits with hzero | hvariant
    · exact absurd hzero (hno l other hother)
    · have hle := hgreatest l (mem_variantWrites_iff.mpr ⟨other, hother, hvariant⟩)
      exact .inr ⟨ne_zero_of_testBit hbit, ne_zero_of_testBit hvariant.1,
        lt_of_le_of_ne hle hne⟩
  · rintro ⟨call, hcall, hhits, hbeats⟩
    have hvariant := hhits.resolve_left (hno k call hcall)
    refine ⟨mem_variantWrites_iff.mpr ⟨call, hcall, hvariant⟩, fun l hmem => ?_⟩
    obtain ⟨other, hother, hotherVariant⟩ := mem_variantWrites_iff.mp hmem
    by_cases hne : l = k
    · exact le_of_eq hne
    · rcases hbeats l other hother hne (.inr hotherVariant) with ⟨hzero, _⟩ | ⟨_, _, hlt⟩
      · exact absurd hzero (ne_zero_of_testBit hvariant.1)
      · exact le_of_lt hlt

/-- **What `GetRegInfo` returns**: the register that beats the others that are found. -/
theorem returned_iff (size : ℕ) (v : GPUVariant) (reg : UInt32) (k : ℕ) :
    getRegInfo (registerTables size (numbered calls)) (some v) reg = some (some k) ↔
      reg.toNat < size ∧ ∃ call, calls[k]? = some call ∧
        Hits call.variants call.offset v reg.toNat ∧
        ∀ l other, calls[l]? = some other → l ≠ k → Hits other.variants other.offset v reg.toNat →
          Beats call.variants k other.variants l := by
  unfold getRegInfo registerTables
  dsimp only
  by_cases hsize : reg.toNat < size
  · rw [if_pos hsize, and_iff_right hsize]
    cases hplain : written (plainWrites (numbered calls)) reg.toNat with
    | some m =>
      dsimp only
      rw [Option.some_inj, Option.some_inj]
      exact plainReturned_iff hplain
    | none =>
      dsimp only
      rw [Option.some_inj]
      exact variantReturned_iff hplain
  · rw [if_neg hsize]
    exact iff_of_false (by simp) fun h => hsize h.1

end Returned

/-! ## The entries -/

section Entries

variable {db : Database} {domain : Domain} {attributes : RegAttributes} {info : RegInfo}

theorem writtenBitfields_eq (h : regInfo db domain attributes = some info) :
    writtenBitfields db domain attributes =
      if customType attributes.type = none then attributes.bitfields
      else typeFields db domain attributes.type := by
  obtain ⟨_, _, _, hget⟩ := regInfo_spec h
  unfold getBitfieldsOrEnumHandleFromBitset at hget
  unfold typeFields
  cases hcustom : customType attributes.type with
  | none =>
    rw [hcustom, Option.some_inj, Prod.mk.injEq] at hget
    rw [if_pos rfl]
    exact hget.1.symm
  | some type =>
    rw [hcustom] at hget
    dsimp only at hget
    rw [if_neg (by simp), Option.bind_some]
    cases hbitset : db.bitset domain type with
    | some bitset =>
      rw [hbitset, Option.some_inj, Prod.mk.injEq] at hget
      exact hget.1.symm
    | none =>
      rw [hbitset] at hget
      cases henum : db.enum type with
      | none =>
        rw [henum] at hget
        cases hget
      | some _ =>
        rw [henum] at hget
        obtain ⟨handle, _, hpair⟩ := Option.map_eq_some_iff.mp hget
        exact (congrArg Prod.fst hpair).symm

theorem describe_iff (h : regInfo db domain attributes = some info) (bitfields : List Bitfield) :
    describe db attributes bitfields info.enumHandle = some info ↔
      bitfields.mapM (appendBitfield db attributes.is64) = some info.fields := by
  unfold regInfo at h
  obtain ⟨⟨written, handle⟩, _, hdescribe⟩ := Option.bind_eq_some_iff.mp h
  unfold describe at hdescribe ⊢
  simp only [Option.bind_eq_bind, Option.bind_eq_some_iff, Option.some_inj] at hdescribe ⊢
  obtain ⟨kshr, hshr, kwidth, hwidth, kradix, hradix, fields, hfields, rfl⟩ := hdescribe
  constructor
  · rintro ⟨_, _, _, _, _, _, other, hother, heq⟩
    rw [hother]
    exact congrArg (some ∘ RegInfo.fields) heq
  · intro hmapM
    exact ⟨kshr, hshr, kwidth, hwidth, kradix, hradix, fields, hmapM, rfl⟩

/-- **An entry has all bit fields** exactly if the register has none of its own beside its type. -/
theorem describe_declared_iff (h : regInfo db domain attributes = some info) :
    describe db attributes (declaredBitfields db domain attributes) info.enumHandle = some info ↔
      attributes.bitfields = [] ∨ customType attributes.type = none := by
  obtain ⟨_, _, hfields, _⟩ := regInfo_spec h
  have hdeclared : declaredBitfields db domain attributes =
      typeFields db domain attributes.type ++ attributes.bitfields := rfl
  rw [describe_iff h, hdeclared]
  rw [writtenBitfields_eq h] at hfields
  by_cases hcustom : customType attributes.type = none
  · rw [if_pos hcustom] at hfields
    have hnone : typeFields db domain attributes.type = [] := by
      rw [typeFields, hcustom]
      rfl
    rw [hnone, List.nil_append]
    exact iff_of_true hfields (.inr hcustom)
  · rw [if_neg hcustom] at hfields
    rw [or_iff_left hcustom]
    constructor
    · intro hmapM
      have hlength := List.length_of_mapM hmapM
      rw [List.length_of_mapM hfields, List.length_append] at hlength
      exact List.eq_nil_of_length_eq_zero (by omega)
    · intro hown
      rw [hown, List.append_nil, hfields]

end Entries

/-! ## The registers of the domain -/

section Domains

variable {db : Database} {domain : Domain} {calls : List (RegisterCall RegInfo)}

theorem mapM_of_output (h : outputRegisterInfo db domain = some calls) :
    (places domain).mapM (fun place => outputSingleRegister db domain place.attributes) =
      some calls := by
  unfold outputRegisterInfo at h
  split_ifs at h
  exact h

theorem outputSingleRegister_spec {attributes : RegAttributes} {call : RegisterCall RegInfo}
    (h : outputSingleRegister db domain attributes = some call) :
    call.offset = attributes.offset ∧
      call.variants = getGPUVariantsBitField attributes.variants ∧
      regInfo db domain attributes = some call.entry := by
  obtain ⟨info, hinfo, rfl⟩ := Option.map_eq_some_iff.mp h
  exact ⟨rfl, rfl, hinfo⟩

theorem call_of_place (h : outputRegisterInfo db domain = some calls) {k : ℕ}
    {place : RegisterPlace} (hplace : (places domain)[k]? = some place) :
    ∃ call, calls[k]? = some call ∧ call.offset = place.offset ∧ call.variants = place.bits := by
  have hget := List.getElem?_of_mapM (mapM_of_output h) k
  rw [hplace, Option.map_some] at hget
  obtain ⟨call, hcall, hwritten⟩ := Option.map_eq_some_iff.mp hget.symm
  obtain ⟨hoffset, hvariants, _⟩ := outputSingleRegister_spec hwritten.symm
  exact ⟨call, hcall, hoffset, hvariants⟩

theorem place_of_call (h : outputRegisterInfo db domain = some calls) {k : ℕ}
    {call : RegisterCall RegInfo} (hcall : calls[k]? = some call) :
    ∃ place, (places domain)[k]? = some place ∧ call.offset = place.offset ∧
      call.variants = place.bits := by
  have hget := List.getElem?_of_mapM (mapM_of_output h) k
  rw [hcall, Option.map_some] at hget
  obtain ⟨place, hplace, hwritten⟩ := Option.map_eq_some_iff.mp hget
  obtain ⟨hoffset, hvariants, _⟩ := outputSingleRegister_spec hwritten
  exact ⟨place, hplace, hoffset, hvariants⟩

theorem GPUVariant.exists_index {i : ℕ} (h : i < 7) : ∃ v : GPUVariant, v.index = i := by
  interval_cases i
  · exact ⟨.kA2XX, rfl⟩
  · exact ⟨.kA3XX, rfl⟩
  · exact ⟨.kA4XX, rfl⟩
  · exact ⟨.kA5XX, rfl⟩
  · exact ⟨.kA6XX, rfl⟩
  · exact ⟨.kA7XX, rfl⟩
  · exact ⟨.kA8XX, rfl⟩

theorem exists_declaredFor (place : RegisterPlace) : ∃ v, place.DeclaredFor v := by
  unfold RegisterPlace.DeclaredFor Declares
  have hlt := getGPUVariantsBitField_lt place.declaredVariants
  generalize getGPUVariantsBitField place.declaredVariants = bits at *
  by_cases hzero : bits = 0
  · exact ⟨.kA2XX, .inl hzero⟩
  · obtain ⟨i, hbit⟩ := Nat.exists_testBit_of_ne_zero hzero
    have hle := Nat.ge_two_pow_of_testBit hbit
    obtain ⟨v, hv⟩ := GPUVariant.exists_index
      ((Nat.pow_lt_pow_iff_right (by decide)).mp (hle.trans_lt hlt))
    exact ⟨v, .inr (hv ▸ hbit)⟩

theorem hits_self_iff (place : RegisterPlace) (v : GPUVariant) :
    Hits place.bits place.offset v place.offset ↔ place.WrittenFor v := by
  unfold Hits RegisterPlace.WrittenFor Declares
  simp

theorem not_beats_iff {bits k otherBits l : ℕ} (hne : l ≠ k) :
    ¬ Beats bits k otherBits l ↔ Beats otherBits l bits k := by
  unfold Beats
  by_cases h : bits = 0 <;> by_cases h' : otherBits = 0 <;> simp [h, h'] <;> omega

theorem placeReturned_iff (h : outputRegisterInfo db domain = some calls) {k : ℕ}
    {place : RegisterPlace} (hplace : (places domain)[k]? = some place) (v : GPUVariant) :
    (place.offset < 2 ^ 32 ∧
      getRegInfo (registerTables (regInfoSize domain) (numbered calls)) (some v)
        (UInt32.ofNat place.offset) = some (some k)) ↔
      place.offset < 2 ^ 32 ∧ place.offset < regInfoSize domain ∧ place.WrittenFor v ∧
        ∀ l (other : RegisterPlace), (places domain)[l]? = some other → l ≠ k →
          Hits other.bits other.offset v place.offset → Beats place.bits k other.bits l := by
  apply and_congr_right
  intro hlt
  have hreg : (UInt32.ofNat place.offset).toNat = place.offset := by
    rw [UInt32.toNat_ofNat', Nat.mod_eq_of_lt hlt]
  obtain ⟨call, hcall, hoffset, hvariants⟩ := call_of_place h hplace
  rw [returned_iff, hreg]
  apply and_congr_right
  intro _
  constructor
  · rintro ⟨found, hfound, hhits, hbeats⟩
    obtain rfl : call = found := Option.some_inj.mp (hcall.symm.trans hfound)
    rw [hoffset, hvariants] at hhits
    refine ⟨(hits_self_iff place v).mp hhits, fun l other hother hne hits => ?_⟩
    obtain ⟨otherCall, hotherCall, hotherOffset, hotherVariants⟩ := call_of_place h hother
    rw [← hotherOffset, ← hotherVariants] at hits
    rw [← hvariants, ← hotherVariants]
    exact hbeats l otherCall hotherCall hne hits
  · rintro ⟨hwritten, hbeats⟩
    refine ⟨call, hcall, ?_, fun l otherCall hotherCall hne hits => ?_⟩
    · rw [hoffset, hvariants]
      exact (hits_self_iff place v).mpr hwritten
    · obtain ⟨other, hother, hotherOffset, hotherVariants⟩ := place_of_call h hotherCall
      rw [hotherOffset, hotherVariants] at hits
      rw [hvariants, hotherVariants]
      exact hbeats l other hother hne hits

/-- **The tables have what the domain declares** exactly if nothing that is written is in the
way. -/
theorem tablesFaithful_iff (h : outputRegisterInfo db domain = some calls) :
    TablesFaithful db domain calls ↔ TablesClear domain := by
  have hentries := List.forall₂_and_of_mapM (mapM_of_output h)
    (fun place _ call hcall =>
      show call.offset = place.offset ∧
          describe db place.attributes (declaredBitfields db domain place.attributes)
            call.entry.enumHandle = some call.entry ↔
        (place.attributes.bitfields = [] ∨ customType place.attributes.type = none) by
      obtain ⟨hoffset, _, hinfo⟩ := outputSingleRegister_spec hcall
      rw [describe_declared_iff hinfo, and_iff_right]
      exact hoffset)
  constructor
  · intro hfaithful
    have hreturned : ∀ {k : ℕ} {place : RegisterPlace}, (places domain)[k]? = some place →
        ∀ v, _ ↔ place.DeclaredFor v := fun {k} {place} hplace v =>
      (placeReturned_iff h hplace v).symm.trans (hfaithful.returned k place hplace v)
    have hoffsets : ∀ {k : ℕ} {place : RegisterPlace}, (places domain)[k]? = some place →
        place.offset < regInfoSize domain ∧ place.offset < 2 ^ 32 := by
      intro k place hplace
      obtain ⟨v, hv⟩ := exists_declaredFor place
      have hfound := (hreturned hplace v).mpr hv
      exact ⟨hfound.2.1, hfound.1⟩
    refine ⟨hentries.mp ⟨hfaithful.offsets, hfaithful.entries⟩, ?_, ?_, ?_, ?_⟩
    · intro place hmem
      obtain ⟨k, hplace⟩ := List.mem_iff_getElem?.mp hmem
      exact hoffsets hplace
    · intro place hmem v hv
      obtain ⟨k, hplace⟩ := List.mem_iff_getElem?.mp hmem
      exact ((hreturned hplace v).mpr hv).2.2.1
    · intro k place hplace l other hother hne v hv hhits
      exact ((hreturned hplace v).mpr hv).2.2.2 l other hother hne hhits
    · intro k place hplace v hwritten hundeclared
      by_contra hno
      apply hundeclared
      apply (hreturned hplace v).mp
      refine ⟨(hoffsets hplace).2, (hoffsets hplace).1, hwritten,
        fun l other hother hne hhits => ?_⟩
      by_contra hbeaten
      exact hno ⟨l, other, hother, hne, hhits, (not_beats_iff hne).mp hbeaten⟩
  · intro hclear
    obtain ⟨hoffsets, hinfos⟩ := hentries.mpr hclear.fields
    refine ⟨?_, hoffsets, hinfos, ?_⟩
    · intro call hmem _
      obtain ⟨k, hcall⟩ := List.mem_iff_getElem?.mp hmem
      obtain ⟨place, hplace, hoffset, _⟩ := place_of_call h hcall
      rw [hoffset]
      exact (hclear.offsets place (List.mem_of_getElem? hplace)).1
    · intro k place hplace v
      have hmem := List.mem_of_getElem? hplace
      rw [placeReturned_iff h hplace]
      constructor
      · rintro ⟨_, _, hwritten, hbeats⟩
        by_contra hundeclared
        obtain ⟨l, other, hother, hne, hhits, hbeaten⟩ :=
          hclear.excess k place hplace v hwritten hundeclared
        exact (not_beats_iff hne).mpr hbeaten (hbeats l other hother hne hhits)
      · intro hv
        exact ⟨(hclear.offsets place hmem).2, (hclear.offsets place hmem).1,
          hclear.variants place hmem v hv, fun l other hother hne hhits =>
            hclear.alone k place hplace l other hother hne v hv hhits⟩

end Domains

/-! ## Arrays of registers -/

/-- The register with the greatest offset. -/
def secvidTsbStatus : Register where
  name := "RBBM_SECVID_TSB_STATUS"
  offset := 0xfc00
  is64 := true
  variants := some "A7XX-"

/-- An array with elements, of which one instance is kept. -/
def viewportZclamp : RegArray where
  name := "GRAS_CL_VIEWPORT_ZCLAMP"
  offset := 0x8070
  stride := 2
  length := 1
  variants := some "A6XX-A7XX"
  children :=
    [.register { name := "MIN", offset := 0, type := some "float" },
      .register { name := "MAX", offset := 1, type := some "float" }]

/-- An array without elements. -/
def qualityLookupTable : RegArray where
  name := "GRAS_LRZ_QUALITY_LOOKUP_TABLE"
  offset := 0x8120
  stride := 1
  length := 2
  variants := some "A7XX"
  children := []

/-- The domain with one array. -/
def arrayDomain (array : RegArray) : Domain where
  name := "A6XX"
  registers := [secvidTsbStatus]
  arrays := [array]

/-- The database of this domain. -/
def arrayDatabase (array : RegArray) : Database where
  domains := [arrayDomain array]

theorem viewportZclamp_isSome : (outputRegisterInfo (arrayDatabase viewportZclamp)
    (arrayDomain viewportZclamp)).isSome = true := by decide +kernel

theorem qualityLookupTable_isSome : (outputRegisterInfo (arrayDatabase qualityLookupTable)
    (arrayDomain qualityLookupTable)).isSome = true := by decide +kernel

/-- An array whose elements have no variants of their own is in the tables. -/
theorem tablesFaithful_viewportZclamp :
    TablesFaithful (arrayDatabase viewportZclamp) (arrayDomain viewportZclamp)
      ((outputRegisterInfo (arrayDatabase viewportZclamp)
        (arrayDomain viewportZclamp)).get viewportZclamp_isSome) := by
  apply (tablesFaithful_iff (Option.some_get viewportZclamp_isSome).symm).mpr
  have hpairs : ∀ p ∈ (places (arrayDomain viewportZclamp)).zipIdx,
      ∀ q ∈ (places (arrayDomain viewportZclamp)).zipIdx, q.2 ≠ p.2 → ∀ v, p.1.DeclaredFor v →
        Hits q.1.bits q.1.offset v p.1.offset → Beats p.1.bits p.2 q.1.bits q.2 := by
    decide +kernel
  have hdeclared : ∀ p ∈ (places (arrayDomain viewportZclamp)).zipIdx, ∀ v, p.1.WrittenFor v →
      p.1.DeclaredFor v := by decide +kernel
  refine ⟨by decide +kernel, by decide +kernel, by decide +kernel, ?_, ?_⟩
  · intro k place hplace l other hother
    exact hpairs (place, k) (List.mem_zipIdx_iff_getElem?.mpr hplace) (other, l)
      (List.mem_zipIdx_iff_getElem?.mpr hother)
  · intro k place hplace v hwritten hundeclared
    exact absurd (hdeclared (place, k) (List.mem_zipIdx_iff_getElem?.mpr hplace) v hwritten)
      hundeclared

/-- An array without elements is in the tables for all variants. -/
theorem qualityLookupTable_not_faithful :
    ∃ calls, outputRegisterInfo (arrayDatabase qualityLookupTable)
        (arrayDomain qualityLookupTable) = some calls ∧
      ¬ TablesFaithful (arrayDatabase qualityLookupTable) (arrayDomain qualityLookupTable)
        calls := by
  refine ⟨_, (Option.some_get qualityLookupTable_isSome).symm, fun h => ?_⟩
  have hdeclared := (h.returned 1 (.single qualityLookupTable 0) (by decide +kernel) .kA6XX).mp
    (by decide +kernel)
  exact absurd hdeclared (by decide +kernel)

end Dive.Adreno
