import Mathlib.Data.List.Induction
import Mathlib.Data.List.Nodup
import Mathlib.Order.Lattice

/-!
# Tables filled by a list of writes

* `written`: what a list of writes leaves under a key, the last value.
* `written_append`, `written_eq_none_iff`, `written_map`: later writes, missing keys, other values.
* `written_eq_some_iff`: the write and those after it.
* `written_eq_some_iff_of_pairwise`: where the values ascend, the greatest one.
-/

section

variable {κ α β : Type*} [DecidableEq κ]

/-- The value that is left under a key. -/
def written (writes : List (κ × α)) (key : κ) : Option α :=
  (writes.reverse.find? fun write => write.1 = key).map Prod.snd

@[simp] theorem written_nil (key : κ) : written ([] : List (κ × α)) key = none := rfl

theorem written_append (writes later : List (κ × α)) (key : κ) :
    written (writes ++ later) key = (written later key).or (written writes key) := by
  rw [written, List.reverse_append, List.find?_append, Option.map_or]
  rfl

theorem written_concat (writes : List (κ × α)) (write : κ × α) (key : κ) :
    written (writes ++ [write]) key = if write.1 = key then some write.2 else written writes key := by
  rw [written_append]
  by_cases h : write.1 = key <;> simp [written, h]

theorem written_eq_none_iff {writes : List (κ × α)} {key : κ} :
    written writes key = none ↔ ∀ write ∈ writes, write.1 ≠ key := by
  simp [written]

theorem mem_of_written {writes : List (κ × α)} {key : κ} {value : α}
    (h : written writes key = some value) : (key, value) ∈ writes := by
  obtain ⟨⟨k, a⟩, hfind, rfl⟩ := Option.map_eq_some_iff.mp h
  have hkey : k = key := by simpa using List.find?_some hfind
  rw [← hkey]
  exact List.mem_reverse.mp (List.mem_of_find?_eq_some hfind)

theorem exists_written_of_mem {writes : List (κ × α)} {key : κ} {value : α}
    (h : (key, value) ∈ writes) : ∃ last, written writes key = some last := by
  cases hlast : written writes key with
  | none => exact absurd rfl (written_eq_none_iff.mp hlast _ h)
  | some last => exact ⟨last, rfl⟩

theorem written_map (f : α → β) (writes : List (κ × α)) (key : κ) :
    written (writes.map fun write => (write.1, f write.2)) key = (written writes key).map f := by
  induction writes using List.reverseRecOn with
  | nil => rfl
  | append_singleton writes write ih =>
    rw [List.map_append, List.map_singleton, written_concat, written_concat, ih]
    dsimp only
    split_ifs
    · rfl
    · rfl

theorem written_eq_some_iff {writes : List (κ × α)} {key : κ} {value : α} :
    written writes key = some value ↔ ∃ before after, writes = before ++ (key, value) :: after ∧
      ∀ write ∈ after, write.1 ≠ key := by
  constructor
  · induction writes using List.reverseRecOn with
    | nil =>
      intro h
      cases h
    | append_singleton writes write ih =>
      intro h
      rw [written_concat] at h
      split_ifs at h with hkey
      · refine ⟨writes, [], ?_, by simp⟩
        rw [← hkey, ← Option.some_inj.mp h]
      · obtain ⟨before, after, rfl, hafter⟩ := ih h
        refine ⟨before, after ++ [write], by simp, fun w hw => ?_⟩
        rcases List.mem_append.mp hw with hw | hw
        · exact hafter w hw
        · rwa [List.mem_singleton.mp hw]
  · rintro ⟨before, after, rfl, hafter⟩
    rw [← List.singleton_append, ← List.append_assoc, written_append,
      written_eq_none_iff.mpr hafter, Option.none_or, written_concat, if_pos rfl]

theorem written_eq_some_iff_of_pairwise [LinearOrder α] {writes : List (κ × α)}
    (hsorted : writes.Pairwise fun write later => write.2 ≤ later.2) {key : κ} {value : α} :
    written writes key = some value ↔
      (key, value) ∈ writes ∧ ∀ other, (key, other) ∈ writes → other ≤ value := by
  constructor
  · intro h
    refine ⟨mem_of_written h, fun other hother => ?_⟩
    obtain ⟨before, after, rfl, hafter⟩ := written_eq_some_iff.mp h
    rw [List.pairwise_append] at hsorted
    rcases List.mem_append.mp hother with hmem | hmem
    · exact hsorted.2.2 _ hmem _ (List.mem_cons_self ..)
    · rcases List.mem_cons.mp hmem with heq | hmem
      · rw [Prod.mk.injEq] at heq
        exact le_of_eq heq.2
      · exact absurd rfl (hafter _ hmem)
  · rintro ⟨hmem, hgreatest⟩
    obtain ⟨last, hlast⟩ := exists_written_of_mem hmem
    rw [hlast, Option.some_inj]
    apply le_antisymm
    · exact hgreatest last (mem_of_written hlast)
    · obtain ⟨before, after, rfl, hafter⟩ := written_eq_some_iff.mp hlast
      rw [List.pairwise_append] at hsorted
      rcases List.mem_append.mp hmem with hbefore | hrest
      · exact hsorted.2.2 _ hbefore _ (List.mem_cons_self ..)
      · rcases List.mem_cons.mp hrest with heq | hrest
        · rw [Prod.mk.injEq] at heq
          exact le_of_eq heq.2
        · exact absurd rfl (hafter _ hrest)

end
