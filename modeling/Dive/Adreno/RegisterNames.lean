import Dive.Adreno.TableEntries

/-!
# Registers by their names

* `nameAssignments`, `getRegOffsetByName`, `getRegByName`: the generated look-up by name, with the
  order in which `g_sRegInfoVariant` is gone through as a list.
* `NamesFaithful`: for every order, a name gives the register of that name that the variant has.
* `LeadsTo`: the offsets that a name gets from the tables in some order.
* **`namesFaithful_iff`**: it does exactly under `NamesClear`: at the offset of every entry of
  `g_sRegInfoVariant`, whatever the variant of the entry, the variant has a register of its name,
  and no register is named like another one with a variant.
-/

namespace Dive.Adreno

/-- `kInvalidRegOffset`. -/
def kInvalidRegOffset : UInt32 := 0xffffffff

/-- `name_with_variant`. -/
def nameWithVariant (name : String) (v : GPUVariant) : String := name ++ "_" ++ v.str

/-! ## The generated look-up -/

/-- An order in which the loop goes through the entries of `g_sRegInfoVariant`, each once. -/
structure FillOrder (tables : RegisterTables RegInfo) (order : List (ℕ × RegInfo)) : Prop where
  nodup : order.Nodup
  mem_iff : ∀ key info, (key, info) ∈ order ↔ tables.regInfoVariant key = some info

/-- The assignments for an entry of `g_sRegInfoVariant`. -/
def variantNames (entry : ℕ × RegInfo) : List (String × UInt32) :=
  let gpuVariants := entry.1 % 2 ^ kGPUVariantsBits
  let regOffset := UInt32.ofNat (entry.1 >>> kGPUVariantsBits)
  (entry.2.name, regOffset) ::
    (GPUVariant.all.filter fun v => gpuVariants.testBit v.index).map fun v =>
      (nameWithVariant entry.2.name v, regOffset)

/-- The assignments for `g_sRegInfo`. -/
def plainNames (tables : RegisterTables RegInfo) : List (String × UInt32) :=
  (List.range tables.size).filterMap fun i =>
    (tables.regInfo i).map fun info => (info.name, UInt32.ofNat i)

/-- The assignments to `g_sRegNameToIndex`. -/
def nameAssignments (tables : RegisterTables RegInfo) (order : List (ℕ × RegInfo)) :
    List (String × UInt32) :=
  plainNames tables ++ order.flatMap variantNames

/-- `GetRegOffsetByName`. -/
def getRegOffsetByName (tables : RegisterTables RegInfo) (order : List (ℕ × RegInfo))
    (gpuVariant : Option GPUVariant) (name : String) : UInt32 :=
  match gpuVariant with
  | none => kInvalidRegOffset
  | some v =>
    match written (nameAssignments tables order) name with
    | some offset => offset
    | none =>
      (written (nameAssignments tables order) (nameWithVariant name v)).getD kInvalidRegOffset

/-- `GetRegByName`. -/
def getRegByName (tables : RegisterTables RegInfo) (order : List (ℕ × RegInfo))
    (gpuVariant : Option GPUVariant) (name : String) : Option (Option RegInfo) :=
  let offset := getRegOffsetByName tables order gpuVariant name
  if offset = kInvalidRegOffset then some none else getRegInfo tables gpuVariant offset

/-! ## What it should give -/

section Faithful

variable (tables : RegisterTables RegInfo)

/-- An entry of one of the tables has this name. -/
def Named (name : String) : Prop :=
  (∃ i < tables.size, ∃ info, tables.regInfo i = some info ∧ info.name = name) ∨
    ∃ key info, tables.regInfoVariant key = some info ∧ info.name = name

/-- The name is that of an entry of `g_sRegInfoVariant` with one of its variants. -/
def IsAlias (name : String) : Prop :=
  ∃ key info, tables.regInfoVariant key = some info ∧
    ∃ w : GPUVariant, key.testBit w.index = true ∧ name = nameWithVariant info.name w

/-- Entry `i` of `g_sRegInfo` is the only one that the name can lead to: there is no later one of
the same name, and none in `g_sRegInfoVariant`. -/
structure LastPlain (i : ℕ) (info : RegInfo) : Prop where
  lt_size : i < tables.size
  entry : tables.regInfo i = some info
  last : ∀ j < tables.size, i < j → ∀ other, tables.regInfo j = some other →
    other.name ≠ info.name
  alone : ∀ key other, tables.regInfoVariant key = some other → other.name ≠ info.name

/-- The name may lead to this offset. -/
def LeadsTo (name : String) (offset : UInt32) : Prop :=
  (∃ key info, tables.regInfoVariant key = some info ∧ info.name = name ∧
    offset = UInt32.ofNat (key >>> kGPUVariantsBits)) ∨
  ∃ i info, LastPlain tables i info ∧ info.name = name ∧ offset = UInt32.ofNat i

variable (domain : Domain) (calls : List (RegisterCall RegInfo)) (v : GPUVariant)

/-- The tables of the registers of a domain. -/
abbrev domainTables : RegisterTables RegInfo := registerTables (regInfoSize domain) calls

/-- The variant has a register of this name. -/
def HasRegister (name : String) : Prop :=
  ∃ place ∈ places domain, place.attributes.name = name ∧ place.DeclaredFor v

/-- A register of this name that the variant has is at this offset, with this description. -/
def IsRegister (name : String) (offset : UInt32) (info : RegInfo) : Prop :=
  ∃ k : ℕ, ∃ place : RegisterPlace, ∃ call : RegisterCall RegInfo,
    (places domain)[k]? = some place ∧ calls[k]? = some call ∧ place.attributes.name = name ∧
      place.DeclaredFor v ∧ place.offset = offset.toNat ∧ call.entry = info

/-- `GetRegInfo` describes a register of this name that the variant has at this offset. -/
def FoundAt (name : String) (offset : UInt32) : Prop :=
  offset ≠ kInvalidRegOffset ∧ ∃ info, IsRegister domain calls v name offset info ∧
    getRegInfo (domainTables domain calls) (some v) offset = some (some info)

/-- **Names give the registers that the variant has**, whatever the order of the entries. The names
with a variant that the look-up adds itself are not asked for, unless a register has one. -/
structure NamesFaithful : Prop where
  inside : ∀ call ∈ calls, call.variants = 0 → call.offset < regInfoSize domain
  found : ∀ order, FillOrder (domainTables domain calls) order → ∀ name,
    HasRegister domain v name →
      let offset := getRegOffsetByName (domainTables domain calls) order (some v) name
      offset ≠ kInvalidRegOffset ∧ ∃ info, IsRegister domain calls v name offset info ∧
        getRegByName (domainTables domain calls) order (some v) name = some (some info)
  missing : ∀ order, FillOrder (domainTables domain calls) order → ∀ name,
    ¬ HasRegister domain v name →
    ((∃ place ∈ places domain, place.attributes.name = name) ∨
      ¬ IsAlias (domainTables domain calls) name) →
      getRegOffsetByName (domainTables domain calls) order (some v) name = kInvalidRegOffset ∧
        getRegByName (domainTables domain calls) order (some v) name = some none

/-- **No entry of another variant is in the way of a name.** -/
structure NamesClear : Prop where
  inside : ∀ call ∈ calls, call.variants = 0 → call.offset < regInfoSize domain
  entries : ∀ name offset, LeadsTo (domainTables domain calls) name offset →
    FoundAt domain calls v name offset ∨
      offset = kInvalidRegOffset ∧ ¬ HasRegister domain v name
  aliases : ∀ place ∈ places domain,
    ¬ IsAlias (domainTables domain calls) place.attributes.name
  present : ∀ name, HasRegister domain v name → Named (domainTables domain calls) name
  absent : ∀ name, ¬ Named (domainTables domain calls) name →
    ¬ IsAlias (domainTables domain calls) name → ∀ offset,
      LeadsTo (domainTables domain calls) (nameWithVariant name v) offset →
        offset = kInvalidRegOffset

end Faithful

/-! ## Names with a variant -/

theorem nameWithVariant_ne (name : String) (v : GPUVariant) : nameWithVariant name v ≠ name := by
  intro h
  have hlength := congrArg (fun s => s.toList.length) h
  simp only [nameWithVariant, String.toList_append, List.length_append, v.length_str] at hlength
  omega

theorem nameWithVariant_inj {name name' : String} {v v' : GPUVariant}
    (h : nameWithVariant name v = nameWithVariant name' v') : name = name' := by
  have hlist := congrArg String.toList h
  simp only [nameWithVariant, String.toList_append] at hlist
  have hsuffix := List.append_inj_left' hlist (by rw [v.length_str, v'.length_str])
  exact String.toList_inj.mp (List.append_inj_left' hsuffix rfl)

/-! ## Assignments -/

section Assignments

variable {tables : RegisterTables RegInfo} {order : List (ℕ × RegInfo)} {name : String}
  {offset : UInt32}

theorem mem_variantNames_iff {key : ℕ} {info : RegInfo} :
    (name, offset) ∈ variantNames (key, info) ↔
      offset = UInt32.ofNat (key >>> kGPUVariantsBits) ∧
        (name = info.name ∨ ∃ w : GPUVariant, key.testBit w.index = true ∧
          name = nameWithVariant info.name w) := by
  have hbit : ∀ w : GPUVariant,
      (key % 2 ^ kGPUVariantsBits).testBit w.index = key.testBit w.index := by
    intro w
    rw [Nat.testBit_mod_two_pow, kGPUVariantsBits, decide_eq_true w.index_lt, Bool.true_and]
  simp only [variantNames, List.mem_cons, List.mem_map, List.mem_filter, Prod.mk.injEq, hbit]
  constructor
  · rintro (⟨rfl, rfl⟩ | ⟨w, ⟨_, hw⟩, rfl, rfl⟩)
    · exact ⟨rfl, .inl rfl⟩
    · exact ⟨rfl, .inr ⟨w, hw, rfl⟩⟩
  · rintro ⟨rfl, rfl | ⟨w, hw, rfl⟩⟩
    · exact .inl ⟨rfl, rfl⟩
    · exact .inr ⟨w, ⟨w.mem_all, hw⟩, rfl, rfl⟩

theorem mem_flatMap_variantNames_iff (horder : FillOrder tables order) :
    (name, offset) ∈ order.flatMap variantNames ↔
      ∃ key info, tables.regInfoVariant key = some info ∧
        offset = UInt32.ofNat (key >>> kGPUVariantsBits) ∧
          (name = info.name ∨ ∃ w : GPUVariant, key.testBit w.index = true ∧
            name = nameWithVariant info.name w) := by
  rw [List.mem_flatMap]
  constructor
  · rintro ⟨⟨key, info⟩, hmem, hname⟩
    exact ⟨key, info, (horder.mem_iff key info).mp hmem, mem_variantNames_iff.mp hname⟩
  · rintro ⟨key, info, hentry, hname⟩
    exact ⟨(key, info), (horder.mem_iff key info).mpr hentry, mem_variantNames_iff.mpr hname⟩

theorem variantNames_none (horder : FillOrder tables order) (halias : ¬ IsAlias tables name)
    (halone : ∀ key info, tables.regInfoVariant key = some info → info.name ≠ name) :
    written (order.flatMap variantNames) name = none := by
  rw [written_eq_none_iff]
  rintro ⟨other, offset⟩ hmem rfl
  obtain ⟨key, info, hentry, _, rfl | ⟨w, hw, rfl⟩⟩ := (mem_flatMap_variantNames_iff horder).mp hmem
  · exact halone key info hentry rfl
  · exact halias ⟨key, info, hentry, w, hw, rfl⟩

variable (tables) in
/-- The names in `g_sRegInfo` with their indices. -/
def plainIndices : List (String × ℕ) :=
  (List.range tables.size).filterMap fun i => (tables.regInfo i).map fun info => (info.name, i)

theorem mem_plainIndices_iff {i : ℕ} : (name, i) ∈ plainIndices tables ↔
    i < tables.size ∧ ∃ info, tables.regInfo i = some info ∧ info.name = name := by
  simp only [plainIndices, List.mem_filterMap, List.mem_range, Option.map_eq_some_iff,
    Prod.mk.injEq]
  constructor
  · rintro ⟨j, hj, info, hinfo, hname, rfl⟩
    exact ⟨hj, info, hinfo, hname⟩
  · rintro ⟨hi, info, hinfo, hname⟩
    exact ⟨i, hi, info, hinfo, hname, rfl⟩

theorem plainNames_eq : plainNames tables =
    (plainIndices tables).map fun entry => (entry.1, UInt32.ofNat entry.2) := by
  rw [plainNames, plainIndices, List.map_filterMap]
  congr 1
  funext i
  rw [Option.map_map]
  rfl

theorem pairwise_plainIndices :
    (plainIndices tables).Pairwise fun entry later => entry.2 ≤ later.2 := by
  apply List.Pairwise.filterMap _ _ List.pairwise_lt_range
  intro i j hij entry hentry later hlater
  obtain ⟨_, _, rfl⟩ := Option.map_eq_some_iff.mp hentry
  obtain ⟨_, _, rfl⟩ := Option.map_eq_some_iff.mp hlater
  exact le_of_lt hij

theorem written_plainNames_iff : written (plainNames tables) name = some offset ↔
    ∃ i info, i < tables.size ∧ tables.regInfo i = some info ∧ info.name = name ∧
      (∀ j < tables.size, i < j → ∀ other, tables.regInfo j = some other → other.name ≠ name) ∧
        offset = UInt32.ofNat i := by
  rw [plainNames_eq, written_map, Option.map_eq_some_iff]
  constructor
  · rintro ⟨i, hi, rfl⟩
    obtain ⟨hmem, hgreatest⟩ := (written_eq_some_iff_of_pairwise pairwise_plainIndices).mp hi
    obtain ⟨hlt, info, hinfo, hname⟩ := mem_plainIndices_iff.mp hmem
    refine ⟨i, info, hlt, hinfo, hname, fun j hj hij other hother heq => ?_, rfl⟩
    exact absurd (hgreatest j (mem_plainIndices_iff.mpr ⟨hj, other, hother, heq⟩)) (by omega)
  · rintro ⟨i, info, hlt, hinfo, hname, hlast, rfl⟩
    refine ⟨i, ?_, rfl⟩
    apply (written_eq_some_iff_of_pairwise pairwise_plainIndices).mpr
    refine ⟨mem_plainIndices_iff.mpr ⟨hlt, info, hinfo, hname⟩, fun j hmem => ?_⟩
    obtain ⟨hj, other, hother, heq⟩ := mem_plainIndices_iff.mp hmem
    by_contra hgt
    exact hlast j hj (by omega) other hother heq

/-- **Where a name leads**, unless it is one that the look-up adds. -/
theorem leadsTo_of_written (horder : FillOrder tables order) (halias : ¬ IsAlias tables name)
    (h : written (nameAssignments tables order) name = some offset) :
    LeadsTo tables name offset := by
  rw [nameAssignments, written_append] at h
  cases hvariant : written (order.flatMap variantNames) name with
  | some found =>
    rw [hvariant, Option.some_or, Option.some_inj] at h
    obtain ⟨key, info, hentry, hoffset, hname⟩ :=
      (mem_flatMap_variantNames_iff horder).mp (mem_of_written hvariant)
    rcases hname with rfl | ⟨w, hw, rfl⟩
    · exact .inl ⟨key, info, hentry, rfl, h ▸ hoffset⟩
    · exact absurd ⟨key, info, hentry, w, hw, rfl⟩ halias
  | none =>
    rw [hvariant, Option.none_or] at h
    obtain ⟨i, info, hlt, hinfo, rfl, hlast, hoffset⟩ := written_plainNames_iff.mp h
    refine .inr ⟨i, info, ⟨hlt, hinfo, hlast, fun key other hentry heq => ?_⟩, rfl, hoffset⟩
    exact written_eq_none_iff.mp hvariant (info.name, UInt32.ofNat (key >>> kGPUVariantsBits))
      ((mem_flatMap_variantNames_iff horder).mpr ⟨key, other, hentry, rfl, .inl heq.symm⟩) rfl

theorem exists_written_of_named (horder : FillOrder tables order) (h : Named tables name) :
    ∃ offset, written (nameAssignments tables order) name = some offset := by
  rcases h with ⟨i, hi, info, hinfo, hname⟩ | ⟨key, info, hinfo, hname⟩
  · have hmem : (name, UInt32.ofNat i) ∈ plainNames tables := by
      rw [plainNames_eq]
      exact List.mem_map.mpr ⟨_, mem_plainIndices_iff.mpr ⟨hi, info, hinfo, hname⟩, rfl⟩
    exact exists_written_of_mem (List.mem_append_left _ hmem)
  · have hmem := (mem_flatMap_variantNames_iff horder).mpr
      ⟨key, info, hinfo, rfl, .inl hname.symm⟩
    exact exists_written_of_mem (List.mem_append_right _ hmem)

theorem named_of_leadsTo (h : LeadsTo tables name offset) : Named tables name := by
  rcases h with ⟨key, info, hentry, hname, _⟩ | ⟨i, info, hlast, hname, _⟩
  · exact .inr ⟨key, info, hentry, hname⟩
  · exact .inl ⟨i, hlast.lt_size, info, hlast.entry, hname⟩

theorem written_eq_none_iff_not_named (horder : FillOrder tables order)
    (halias : ¬ IsAlias tables name) :
    written (nameAssignments tables order) name = none ↔ ¬ Named tables name := by
  constructor
  · intro hnone hnamed
    obtain ⟨offset, hoffset⟩ := exists_written_of_named horder hnamed
    rw [hnone] at hoffset
    cases hoffset
  · intro hnamed
    cases hwritten : written (nameAssignments tables order) name with
    | none => rfl
    | some offset =>
      exact absurd (named_of_leadsTo (leadsTo_of_written horder halias hwritten)) hnamed

theorem not_isAlias_nameWithVariant (h : ¬ Named tables name) (v : GPUVariant) :
    ¬ IsAlias tables (nameWithVariant name v) := by
  rintro ⟨key, info, hentry, w, _, heq⟩
  exact h (.inr ⟨key, info, hentry, (nameWithVariant_inj heq).symm⟩)

theorem named_of_getRegInfo {v : GPUVariant} {reg : UInt32} {info : RegInfo}
    (h : getRegInfo tables (some v) reg = some (some info)) : Named tables info.name := by
  unfold getRegInfo at h
  split_ifs at h with hsize
  cases hplain : tables.regInfo reg.toNat with
  | some found =>
    rw [hplain] at h
    obtain rfl : found = info := by simpa using h
    exact .inl ⟨reg.toNat, hsize, found, hplain, rfl⟩
  | none =>
    rw [hplain] at h
    exact .inr ⟨_, info, Option.some_inj.mp h, rfl⟩

end Assignments

/-! ## Orders -/

section Orders

variable {size : ℕ} {calls : List (RegisterCall RegInfo)}

variable (size calls) in
/-- The keys in the order of their last assignments. -/
def writtenOrder : List (ℕ × RegInfo) :=
  ((variantWrites calls).map Prod.fst).dedup.filterMap fun key =>
    ((registerTables size calls).regInfoVariant key).map fun info => (key, info)

theorem fillOrder_writtenOrder :
    FillOrder (registerTables size calls) (writtenOrder size calls) := by
  constructor
  · apply List.Nodup.filterMap _ (List.nodup_dedup _)
    intro key key' entry hentry hentry'
    obtain ⟨info, _, rfl⟩ := Option.map_eq_some_iff.mp hentry
    obtain ⟨info', _, heq⟩ := Option.map_eq_some_iff.mp hentry'
    exact (congrArg Prod.fst heq).symm
  · intro key info
    simp only [writtenOrder, List.mem_filterMap, List.mem_dedup, Option.map_eq_some_iff,
      Prod.mk.injEq]
    constructor
    · rintro ⟨_, _, _, hinfo, rfl, rfl⟩
      exact hinfo
    · intro hinfo
      exact ⟨key, List.mem_map_of_mem (mem_of_written hinfo), info, hinfo, rfl, rfl⟩

/-- **Any entry may come last.** -/
theorem exists_fillOrder_last {key : ℕ} {info : RegInfo}
    (h : (registerTables size calls).regInfoVariant key = some info) :
    ∃ order, FillOrder (registerTables size calls) (order ++ [(key, info)]) := by
  have horder := @fillOrder_writtenOrder size calls
  refine ⟨(writtenOrder size calls).erase (key, info), ?_, ?_⟩
  · rw [List.nodup_append_comm, List.singleton_append, List.nodup_cons]
    exact ⟨horder.nodup.not_mem_erase, horder.nodup.erase _⟩
  · intro key' info'
    rw [List.mem_append, List.mem_singleton, horder.nodup.mem_erase_iff, horder.mem_iff]
    constructor
    · rintro (⟨_, hentry⟩ | heq)
      · exact hentry
      · rw [Prod.mk.injEq] at heq
        rw [heq.1, heq.2]
        exact h
    · intro hentry
      by_cases heq : (key', info') = (key, info)
      · exact .inr heq
      · exact .inl ⟨heq, hentry⟩

theorem written_last (tables : RegisterTables RegInfo) (order : List (ℕ × RegInfo)) {key : ℕ}
    {info : RegInfo} {name : String}
    (hname : name = info.name ∨ ∃ w : GPUVariant, key.testBit w.index = true ∧
      name = nameWithVariant info.name w) :
    written (nameAssignments tables (order ++ [(key, info)])) name =
      some (UInt32.ofNat (key >>> kGPUVariantsBits)) := by
  obtain ⟨offset, hoffset⟩ := exists_written_of_mem (mem_variantNames_iff.mpr ⟨rfl, hname⟩)
  rw [nameAssignments, List.flatMap_append, List.flatMap_singleton, ← List.append_assoc,
    written_append, hoffset, Option.some_or, (mem_variantNames_iff.mp (mem_of_written hoffset)).1]

/-- **Each offset that a name may lead to is its offset in some order.** -/
theorem exists_order_of_leadsTo {name : String} {offset : UInt32}
    (halias : ¬ IsAlias (registerTables size calls) name)
    (h : LeadsTo (registerTables size calls) name offset) :
    ∃ order, FillOrder (registerTables size calls) order ∧
      written (nameAssignments (registerTables size calls) order) name = some offset := by
  rcases h with ⟨key, info, hentry, rfl, rfl⟩ | ⟨i, info, hlast, rfl, rfl⟩
  · obtain ⟨order, horder⟩ := exists_fillOrder_last hentry
    exact ⟨_, horder, written_last _ _ (.inl rfl)⟩
  · refine ⟨_, fillOrder_writtenOrder, ?_⟩
    rw [nameAssignments, written_append,
      variantNames_none fillOrder_writtenOrder halias hlast.alone, Option.none_or]
    exact written_plainNames_iff.mpr
      ⟨i, info, hlast.lt_size, hlast.entry, rfl, hlast.last, rfl⟩

end Orders

/-! ## The registers of a domain -/

section Domains

variable {db : Database} {domain : Domain} {calls : List (RegisterCall RegInfo)} {v : GPUVariant}
  {order : List (ℕ × RegInfo)} {name : String} {offset : UInt32}

theorem regInfo_name {attributes : RegAttributes} {info : RegInfo}
    (h : regInfo db domain attributes = some info) : info.name = attributes.name := by
  unfold regInfo describe at h
  simp only [Option.bind_eq_bind, Option.bind_eq_some_iff, Option.some_inj] at h
  obtain ⟨_, _, _, _, _, _, _, _, _, _, rfl⟩ := h
  rfl

theorem name_of_place (h : outputRegisterInfo db domain = some calls) {k : ℕ}
    {place : RegisterPlace} {call : RegisterCall RegInfo}
    (hplace : (places domain)[k]? = some place) (hcall : calls[k]? = some call) :
    call.entry.name = place.attributes.name := by
  have hget := List.getElem?_of_mapM (mapM_of_output h) k
  rw [hplace, hcall, Option.map_some, Option.map_some, Option.some_inj] at hget
  exact regInfo_name (outputSingleRegister_spec hget).2.2

theorem place_of_regInfoVariant (h : outputRegisterInfo db domain = some calls) {key : ℕ}
    {info : RegInfo} (hentry : (domainTables domain calls).regInfoVariant key = some info) :
    (∃ place ∈ places domain, place.attributes.name = info.name) ∧ key < 2 ^ 32 := by
  obtain ⟨call, hmem, hwrite⟩ := List.mem_flatMap.mp (mem_of_written hentry)
  obtain ⟨w, _, hpair⟩ := List.mem_map.mp hwrite
  rw [Prod.mk.injEq] at hpair
  obtain ⟨k, hcall⟩ := List.mem_iff_getElem?.mp hmem
  obtain ⟨place, hplace, _⟩ := place_of_call h hcall
  constructor
  · refine ⟨place, List.mem_of_getElem? hplace, ?_⟩
    rw [← hpair.2, name_of_place h hplace hcall]
  · rw [← hpair.1]
    exact Nat.mod_lt _ (by decide)

theorem place_of_leadsTo (h : outputRegisterInfo db domain = some calls)
    (hleads : LeadsTo (domainTables domain calls) name offset) :
    ∃ place ∈ places domain, place.attributes.name = name := by
  rcases hleads with ⟨key, info, hentry, rfl, _⟩ | ⟨i, info, hlast, rfl, _⟩
  · exact (place_of_regInfoVariant h hentry).1
  · obtain ⟨call, hmem, hpair⟩ := List.mem_map.mp (mem_of_written hlast.entry)
    rw [Prod.mk.injEq] at hpair
    obtain ⟨k, hcall⟩ := List.mem_iff_getElem?.mp (List.mem_filter.mp hmem).1
    obtain ⟨place, hplace, _⟩ := place_of_call h hcall
    refine ⟨place, List.mem_of_getElem? hplace, ?_⟩
    rw [← hpair.2, name_of_place h hplace hcall]

theorem FoundAt.hasRegister (h : FoundAt domain calls v name offset) :
    HasRegister domain v name := by
  obtain ⟨_, _, ⟨_, place, _, hplace, _, hname, hdeclared, _⟩, _⟩ := h
  exact ⟨place, List.mem_of_getElem? hplace, hname, hdeclared⟩

theorem FoundAt.name_eq (hout : outputRegisterInfo db domain = some calls)
    (h : FoundAt domain calls v name offset) :
    ∃ info, info.name = name ∧
      getRegInfo (domainTables domain calls) (some v) offset = some (some info) := by
  obtain ⟨_, info, ⟨_, place, call, hplace, hcall, hname, _, _, rfl⟩, hget⟩ := h
  exact ⟨call.entry, (name_of_place hout hplace hcall).trans hname, hget⟩

theorem keyOffset_ne_invalid {key : ℕ} (h : key < 2 ^ 32) :
    UInt32.ofNat (key >>> kGPUVariantsBits) ≠ kInvalidRegOffset := by
  intro heq
  have htoNat := congrArg UInt32.toNat heq
  have hinvalid : kInvalidRegOffset.toNat = 0xffffffff := by decide
  rw [UInt32.toNat_ofNat', hinvalid, Nat.shiftRight_eq_div_pow, kGPUVariantsBits] at htoNat
  omega

theorem NamesFaithful.lookup (hf : NamesFaithful domain calls v)
    (horder : FillOrder (domainTables domain calls) order)
    (hname : ∃ place ∈ places domain, place.attributes.name = name)
    (hwritten : written (nameAssignments (domainTables domain calls) order) name = some offset) :
    FoundAt domain calls v name offset ∨
      offset = kInvalidRegOffset ∧ ¬ HasRegister domain v name := by
  have hoffset : getRegOffsetByName (domainTables domain calls) order (some v) name = offset := by
    rw [getRegOffsetByName, hwritten]
  by_cases hregister : HasRegister domain v name
  · obtain ⟨hvalid, info, hinfo, hget⟩ := hf.found order horder name hregister
    rw [getRegByName, if_neg hvalid] at hget
    rw [hoffset] at hvalid hinfo hget
    exact .inl ⟨hvalid, info, hinfo, hget⟩
  · have hmissing := (hf.missing order horder name hregister (.inl hname)).1
    exact .inr ⟨hoffset.symm.trans hmissing, hregister⟩

theorem NamesFaithful.not_isAlias (h : outputRegisterInfo db domain = some calls)
    (hf : NamesFaithful domain calls v) {place : RegisterPlace} (hmem : place ∈ places domain) :
    ¬ IsAlias (domainTables domain calls) place.attributes.name := by
  rintro ⟨key, info, hentry, w, hw, hname⟩
  obtain ⟨order, horder⟩ := exists_fillOrder_last hentry
  obtain ⟨hinfo, hkey⟩ := place_of_regInfoVariant h hentry
  have hvalid := keyOffset_ne_invalid hkey
  -- with this entry last both names lead to its offset
  have hfound := (hf.lookup horder ⟨place, hmem, rfl⟩
    (written_last _ _ (.inr ⟨w, hw, hname⟩))).resolve_right fun hno => hvalid hno.1
  have hfound' := (hf.lookup horder hinfo (written_last _ _ (.inl rfl))).resolve_right
    fun hno => hvalid hno.1
  obtain ⟨x, hx, hget⟩ := hfound.name_eq h
  obtain ⟨y, hy, hget'⟩ := hfound'.name_eq h
  rw [hget, Option.some_inj, Option.some_inj] at hget'
  rw [← hget', hx, hname] at hy
  exact nameWithVariant_ne info.name w hy

/-- **Names that are faithful are clear.** -/
theorem NamesFaithful.clear (h : outputRegisterInfo db domain = some calls)
    (hf : NamesFaithful domain calls v) : NamesClear domain calls v := by
  have hpresent : ∀ name, HasRegister domain v name → Named (domainTables domain calls) name := by
    intro name hregister
    obtain ⟨hvalid, info, hinfo, hget⟩ := hf.found _ fillOrder_writtenOrder name hregister
    rw [getRegByName, if_neg hvalid] at hget
    obtain ⟨x, rfl, hx⟩ := FoundAt.name_eq h ⟨hvalid, info, hinfo, hget⟩
    exact named_of_getRegInfo hx
  refine ⟨hf.inside, ?_, fun place hmem => hf.not_isAlias h hmem, hpresent, ?_⟩
  · intro name offset hleads
    obtain ⟨place, hmem, rfl⟩ := place_of_leadsTo h hleads
    obtain ⟨order, horder, hwritten⟩ := exists_order_of_leadsTo (hf.not_isAlias h hmem) hleads
    exact hf.lookup horder ⟨place, hmem, rfl⟩ hwritten
  · intro name hnamed halias offset hleads
    obtain ⟨order, horder, hwritten⟩ :=
      exists_order_of_leadsTo (not_isAlias_nameWithVariant hnamed v) hleads
    have hregister : ¬ HasRegister domain v name := mt (hpresent name) hnamed
    have hmissing := (hf.missing order horder name hregister (.inr halias)).1
    rw [getRegOffsetByName, (written_eq_none_iff_not_named horder halias).mpr hnamed,
      hwritten] at hmissing
    exact hmissing

theorem NamesClear.lookup (hclear : NamesClear domain calls v)
    (horder : FillOrder (domainTables domain calls) order)
    (halias : ¬ IsAlias (domainTables domain calls) name) :
    FoundAt domain calls v name
        (getRegOffsetByName (domainTables domain calls) order (some v) name) ∨
      getRegOffsetByName (domainTables domain calls) order (some v) name = kInvalidRegOffset ∧
        ¬ HasRegister domain v name := by
  unfold getRegOffsetByName
  cases hwritten : written (nameAssignments (domainTables domain calls) order) name with
  | some offset => exact hclear.entries name offset (leadsTo_of_written horder halias hwritten)
  | none =>
    have hnamed := (written_eq_none_iff_not_named horder halias).mp hwritten
    refine .inr ⟨?_, fun hregister => hnamed (hclear.present name hregister)⟩
    dsimp only
    cases hvariant : written (nameAssignments (domainTables domain calls) order)
        (nameWithVariant name v) with
    | none => rfl
    | some offset =>
      apply hclear.absent name hnamed halias
      exact leadsTo_of_written horder (not_isAlias_nameWithVariant hnamed v) hvariant

/-- **Names give the registers that the variant has** exactly if no entry of another variant is in
the way. -/
theorem namesFaithful_iff (h : outputRegisterInfo db domain = some calls) (v : GPUVariant) :
    NamesFaithful domain calls v ↔ NamesClear domain calls v := by
  constructor
  · intro hf
    exact hf.clear h
  · intro hclear
    refine ⟨hclear.inside, ?_, ?_⟩
    · rintro order horder name ⟨place, hmem, rfl, hdeclared⟩
      have hfound := (hclear.lookup horder (hclear.aliases place hmem)).resolve_right
        fun hno => hno.2 ⟨place, hmem, rfl, hdeclared⟩
      obtain ⟨hvalid, info, hinfo, hget⟩ := hfound
      refine ⟨hvalid, info, hinfo, ?_⟩
      rw [getRegByName, if_neg hvalid]
      exact hget
    · intro order horder name hregister hname
      have halias : ¬ IsAlias (domainTables domain calls) name := by
        rcases hname with ⟨place, hmem, rfl⟩ | halias
        · exact hclear.aliases place hmem
        · exact halias
      have hinvalid := ((hclear.lookup horder halias).resolve_left
        fun hfound => hregister hfound.hasRegister).1
      refine ⟨hinvalid, ?_⟩
      rw [getRegByName, if_pos hinvalid]

end Domains

/-! ## A name at two offsets -/

/-- The domain with the register of the greatest offset only. -/
def statusDomain : Domain where
  name := "A6XX"
  registers := [secvidTsbStatus]

/-- The size of points up to A7XX. -/
def pointSize : Register where
  name := "GRAS_SU_POINT_SIZE"
  offset := 0x8092
  low := some 0
  high := some 15
  type := some "fixed"
  radix := some 4
  variants := some "A6XX-A7XX"

/-- The size of points from A8XX on. -/
def pointSizeA8XX : Register :=
  { pointSize with offset := 0x820b, variants := some "A8XX-" }

/-- The domain with a name at two offsets. -/
def pointSizeDomain : Domain where
  name := "A6XX"
  registers := [pointSize, pointSizeA8XX, secvidTsbStatus]

theorem status_isSome :
    (outputRegisterInfo { domains := [statusDomain] } statusDomain).isSome = true := by
  decide +kernel

theorem pointSize_isSome :
    (outputRegisterInfo { domains := [pointSizeDomain] } pointSizeDomain).isSome = true := by
  decide +kernel

/-- A name that only registers of the variant have is found. -/
theorem namesFaithful_status :
    NamesFaithful statusDomain
      ((outputRegisterInfo { domains := [statusDomain] } statusDomain).get status_isSome)
      .kA7XX := by
  apply (namesFaithful_iff (Option.some_get status_isSome).symm .kA7XX).mpr
  set calls := (outputRegisterInfo { domains := [statusDomain] } statusDomain).get status_isSome
  have hvariants : ∀ write ∈ variantWrites calls,
      write.2.name = "RBBM_SECVID_TSB_STATUS" ∧ write.1 >>> kGPUVariantsBits = 0xfc00 := by
    decide +kernel
  have hplain : plainWrites calls = [] := by decide +kernel
  have hname : ∀ place ∈ places statusDomain,
      place.attributes.name = "RBBM_SECVID_TSB_STATUS" := by decide +kernel
  have hleads : ∀ {name : String} {offset : UInt32},
      LeadsTo (domainTables statusDomain calls) name offset →
        name = "RBBM_SECVID_TSB_STATUS" ∧ offset = 0xfc00 := by
    rintro name offset (⟨key, info, hentry, rfl, rfl⟩ | ⟨i, info, hlast, _, _⟩)
    · obtain ⟨hinfo, hkey⟩ := hvariants _ (mem_of_written hentry)
      dsimp only at hinfo hkey
      rw [hkey]
      exact ⟨hinfo, by decide⟩
    · have hmem : (i, info) ∈ plainWrites calls := mem_of_written hlast.entry
      rw [hplain] at hmem
      cases hmem
  have hfound : FoundAt statusDomain calls .kA7XX "RBBM_SECVID_TSB_STATUS" 0xfc00 := by
    refine ⟨by decide, _, ⟨0, .plain secvidTsbStatus, calls.head (by decide +kernel),
      by decide, by decide +kernel, by decide, by decide +kernel, by decide, rfl⟩,
      by decide +kernel⟩
  refine ⟨by decide +kernel, ?_, ?_, ?_, ?_⟩
  · intro name offset h
    obtain ⟨rfl, rfl⟩ := hleads h
    exact .inl hfound
  · rintro place hmem ⟨key, info, hentry, w, _, heq⟩
    rw [hname place hmem, ← (hvariants _ (mem_of_written hentry)).1] at heq
    exact nameWithVariant_ne info.name w heq.symm
  · rintro name ⟨place, hmem, rfl, _⟩
    rw [hname place hmem]
    obtain ⟨info, hinfo, hget⟩ := hfound.name_eq (Option.some_get status_isSome).symm
    rw [← hinfo]
    exact named_of_getRegInfo hget
  · intro name _ _ offset h
    have hlast := congrArg (fun s => s.toList.getLast?) (hleads h).1
    simp [nameWithVariant, GPUVariant.str] at hlast

/-- A variant finds another one's register of the name. -/
theorem pointSize_not_faithful :
    ∃ calls, outputRegisterInfo { domains := [pointSizeDomain] } pointSizeDomain = some calls ∧
      setGPUID 630 = some .kA6XX ∧ ¬ NamesFaithful pointSizeDomain calls .kA6XX := by
  refine ⟨_, (Option.some_get pointSize_isSome).symm, by decide, fun h => ?_⟩
  set calls := (outputRegisterInfo { domains := [pointSizeDomain] } pointSizeDomain).get
    pointSize_isSome
  have hkey : ((domainTables pointSizeDomain calls).regInfoVariant
      (variantKey 0x820b .kA8XX)).map RegInfo.name = some "GRAS_SU_POINT_SIZE" := by
    decide +kernel
  obtain ⟨info, hentry, hinfo⟩ := Option.map_eq_some_iff.mp hkey
  -- the entry of A8XX is the last one that is gone through
  obtain ⟨order, horder⟩ := exists_fillOrder_last hentry
  obtain ⟨_, _, ⟨k, place, call, hplace, _, hname, hdeclared, hoffset, _⟩, _⟩ :=
    h.found _ horder "GRAS_SU_POINT_SIZE" ⟨.plain pointSize, by decide, rfl, by decide +kernel⟩
  rw [getRegOffsetByName, written_last _ _ (.inl hinfo.symm)] at hoffset
  have hother : ∀ place ∈ places pointSizeDomain,
      place.attributes.name = "GRAS_SU_POINT_SIZE" → place.DeclaredFor .kA6XX →
        place.offset ≠ 0x820b := by decide +kernel
  exact hother place (List.mem_of_getElem? hplace) hname hdeclared hoffset

end Dive.Adreno
