import Mathlib.Data.List.Nodup

/-!
# Tables of distinct keys

* `Interned`: a list of distinct keys with a table from each key to the code of its position.
* `Interned.add`: a key that is not in the table gets the next position.
-/

/-- The table finds every key of the list, by the code of its position, and no others. -/
structure Interned {K I : Type*} (code : ℕ → I) (table : K → Option I) (keys : List K) : Prop where
  nodup : keys.Nodup
  lookup : ∀ key i, table key = some i ↔ ∃ k, keys[k]? = some key ∧ i = code k

namespace Interned

variable {K I : Type*} {code : ℕ → I} {table : K → Option I} {keys : List K} {key : K}

theorem empty : Interned code (fun _ : K => none) [] :=
  ⟨List.nodup_nil, fun key i => by simp⟩

theorem position_unique (h : Interned code table keys) {k k' : ℕ} (hk : keys[k]? = some key)
    (hk' : keys[k']? = some key) : k = k' := by
  obtain ⟨hlt, hget⟩ := List.getElem?_eq_some_iff.mp hk
  obtain ⟨hlt', hget'⟩ := List.getElem?_eq_some_iff.mp hk'
  exact (h.nodup.getElem_inj_iff).mp (hget.trans hget'.symm)

theorem eq_none_iff (h : Interned code table keys) : table key = none ↔ key ∉ keys := by
  constructor
  · intro hnone hmem
    obtain ⟨k, hk⟩ := List.mem_iff_getElem?.mp hmem
    rw [(h.lookup key (code k)).mpr ⟨k, hk, rfl⟩] at hnone
    cases hnone
  · intro hnot
    cases hlookup : table key with
    | none => rfl
    | some i =>
      obtain ⟨k, hk, -⟩ := (h.lookup key i).mp hlookup
      exact absurd (List.mem_of_getElem? hk) hnot

/-- **A new key** gets the next position. -/
theorem add [DecidableEq K] (h : Interned code table keys) (hnew : table key = none) :
    Interned code (fun a => if a = key then some (code keys.length) else table a)
      (keys ++ [key]) := by
  have hnot := h.eq_none_iff.mp hnew
  refine ⟨?_, fun a i => ?_⟩
  · rw [List.nodup_append]
    refine ⟨h.nodup, List.nodup_singleton key, fun a ha b hb => ?_⟩
    rw [List.mem_singleton.mp hb]
    exact fun heq => hnot (heq ▸ ha)
  · by_cases ha : a = key
    · subst ha
      rw [if_pos rfl]
      constructor
      · intro hi
        exact ⟨keys.length, by simp, (Option.some.inj hi).symm⟩
      · rintro ⟨k, hk, rfl⟩
        obtain ⟨hlt, hget⟩ := List.getElem?_eq_some_iff.mp hk
        by_cases hk' : k < keys.length
        · rw [List.getElem_append_left hk'] at hget
          exact absurd (hget ▸ List.getElem_mem hk') hnot
        · rw [List.length_append, List.length_singleton] at hlt
          obtain rfl : k = keys.length := by omega
          rfl
    · rw [if_neg ha, h.lookup]
      constructor
      · rintro ⟨k, hk, rfl⟩
        refine ⟨k, ?_, rfl⟩
        rw [List.getElem?_append_left (List.getElem?_eq_some_iff.mp hk).1, hk]
      · rintro ⟨k, hk, rfl⟩
        refine ⟨k, ?_, rfl⟩
        by_cases hk' : k < keys.length
        · rwa [List.getElem?_append_left hk'] at hk
        · obtain ⟨hlt, hget⟩ := List.getElem?_eq_some_iff.mp hk
          rw [List.length_append, List.length_singleton] at hlt
          obtain rfl : k = keys.length := by omega
          rw [List.getElem_concat_length rfl] at hget
          exact absurd hget.symm ha

end Interned
