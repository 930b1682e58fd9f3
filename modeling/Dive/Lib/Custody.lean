import Mathlib.Data.List.AList
import Mathlib.Data.Nat.Notation
import Mathlib.Logic.Function.Basic

/-!
# Resources that a record keeps until they are released

Resources are numbered in the order in which they are obtained; an open one has a name, and a record
keeps names under keys.

* `lookup_insert_eq`, `lookup_erase_eq`: a table as a function.
* `Held`: each resource obtained since `old` was released once, or it is open and on record.
* `Held.obtain`, `Held.release`, `Held.releaseOther`: the operations keep it.
* **`Held.once`**: when the record is empty, each resource obtained since `old` was released once.
-/

namespace Custody

variable {κ ν : Type*}

section Tables

variable [DecidableEq κ] {m : AList fun _ : κ => ν} {k : κ} {v : ν}

theorem lookup_insert_eq :
    (fun j => (m.insert k v).lookup j) = Function.update (fun j => m.lookup j) k (some v) := by
  funext j
  by_cases hj : j = k
  · rw [hj, Function.update_self, AList.lookup_insert]
  · rw [Function.update_of_ne hj, AList.lookup_insert_ne hj]

theorem lookup_erase_eq :
    (fun j => (m.erase k).lookup j) = Function.update (fun j => m.lookup j) k none := by
  funext j
  by_cases hj : j = k
  · rw [hj, Function.update_self, AList.lookup_erase]
  · rw [Function.update_of_ne hj, AList.lookup_erase_ne hj]

end Tables

/-- What was opened is released once, or recorded. -/
structure Held (old next : ℕ) (released : ℕ → ℕ) (record : κ → Option ν) (opened : ν → Option ℕ) :
    Prop where
  le : old ≤ next
  below : ∀ v n, opened v = some n → n < next
  distinct : ∀ v v' n, opened v = some n → opened v' = some n → v = v'
  recorded : ∀ k v, record k = some v → ∃ n, old ≤ n ∧ opened v = some n
  keys : ∀ k k' v, record k = some v → record k' = some v → k = k'
  fate : ∀ n, old ≤ n → n < next → released n = 1 ∨ ∃ k v, record k = some v ∧ opened v = some n
  unreleased : ∀ v n, opened v = some n → old ≤ n → released n = 0
  unused : ∀ n, next ≤ n → released n = 0

/-- One more release of `n`. -/
def bump (n : ℕ) (released : ℕ → ℕ) : ℕ → ℕ := fun i => released i + if i = n then 1 else 0

@[simp] theorem bump_self {n : ℕ} {released : ℕ → ℕ} : bump n released n = released n + 1 := by
  simp [bump]

theorem bump_of_ne {n i : ℕ} {released : ℕ → ℕ} (h : i ≠ n) : bump n released i = released i := by
  simp [bump, h]

theorem of_update_none {α β : Type*} [DecidableEq α] {f : α → Option β} {a x : α} {b : β}
    (h : Function.update f a none x = some b) : x ≠ a ∧ f x = some b := by
  by_cases hx : x = a
  · rw [hx, Function.update_self] at h
    cases h
  · exact ⟨hx, by rwa [Function.update_of_ne hx] at h⟩

namespace Held

variable {old next n : ℕ} {released : ℕ → ℕ} {record : κ → Option ν} {opened : ν → Option ℕ}
  {k : κ} {v : ν}

theorem start (hbelow : ∀ v n, opened v = some n → n < next)
    (hdistinct : ∀ v v' n, opened v = some n → opened v' = some n → v = v') :
    Held next next (fun _ => 0) (fun _ : κ => none) opened where
  le := Nat.le_refl _
  below := hbelow
  distinct := hdistinct
  recorded := fun _ _ h => absurd h (by simp)
  keys := fun _ _ _ h => absurd h (by simp)
  fate := fun _ h h' => absurd h' (by omega)
  unreleased := fun _ _ _ _ => rfl
  unused := fun _ _ => rfl

/-- **Each resource is released once.** -/
theorem once (h : Held old next released record opened) (hrecord : ∀ k, record k = none)
    (hold : old ≤ n) (hn : n < next) : released n = 1 := by
  rcases h.fate n hold hn with hreleased | ⟨k, v, hk, -⟩
  · exact hreleased
  · rw [hrecord k] at hk
    cases hk

variable [DecidableEq ν]

theorem releaseOther (h : Held old next released record opened) (hv : opened v = some n)
    (hrecord : ∀ k, record k ≠ some v) :
    Held old next (bump n released) record (Function.update opened v none) := by
  have hn : n < old := by
    by_contra hn
    rcases h.fate n (by omega) (h.below v n hv) with hreleased | ⟨k, u, hk, hu⟩
    · rw [h.unreleased v n hv (by omega)] at hreleased
      cases hreleased
    · exact hrecord k (h.distinct u v n hu hv ▸ hk)
  refine ⟨h.le, ?_, ?_, ?_, h.keys, ?_, ?_, ?_⟩
  · exact fun u i hu => h.below u i (of_update_none hu).2
  · exact fun u u' i hu hu' => h.distinct u u' i (of_update_none hu).2 (of_update_none hu').2
  · intro j u hj
    rw [Function.update_of_ne fun huv : u = v => hrecord j (huv ▸ hj)]
    exact h.recorded j u hj
  · intro i hold hi
    rw [bump_of_ne (by omega)]
    refine (h.fate i hold hi).imp_right fun ⟨j, u, hj, hu⟩ => ⟨j, u, hj, ?_⟩
    rw [Function.update_of_ne fun huv : u = v => hrecord j (huv ▸ hj), hu]
  · intro u i hu hold
    rw [bump_of_ne (by omega)]
    exact h.unreleased u i (of_update_none hu).2 hold
  · intro i hi
    have := h.le
    rw [bump_of_ne (by omega)]
    exact h.unused i hi

variable [DecidableEq κ]

theorem obtain (h : Held old next released record opened) (hk : record k = none)
    (hv : opened v = none) : Held old (next + 1) released (Function.update record k (some v))
      (Function.update opened v (some next)) := by
  have hopened : ∀ u i, Function.update opened v (some next) u = some i →
      u = v ∧ i = next ∨ u ≠ v ∧ opened u = some i := by
    intro u i hu
    by_cases huv : u = v
    · rw [huv, Function.update_self, Option.some.injEq] at hu
      exact .inl ⟨huv, hu.symm⟩
    · rw [Function.update_of_ne huv] at hu
      exact .inr ⟨huv, hu⟩
  have hrecord : ∀ j u, Function.update record k (some v) j = some u →
      j = k ∧ u = v ∨ j ≠ k ∧ u ≠ v ∧ record j = some u := by
    intro j u hj
    by_cases hjk : j = k
    · rw [hjk, Function.update_self, Option.some.injEq] at hj
      exact .inl ⟨hjk, hj.symm⟩
    · rw [Function.update_of_ne hjk] at hj
      -- what is on record is open
      obtain ⟨i, -, hi⟩ := h.recorded j u hj
      exact .inr ⟨hjk, fun huv => absurd (huv ▸ hi) (by simp [hv]), hj⟩
  refine ⟨?_, ?_, ?_, ?_, ?_, ?_, ?_, ?_⟩
  · have := h.le
    omega
  · intro u i hu
    rcases hopened u i hu with ⟨-, rfl⟩ | ⟨-, hu⟩
    · omega
    · have := h.below u i hu
      omega
  · intro u u' i hu hu'
    rcases hopened u i hu with ⟨rfl, rfl⟩ | ⟨-, hu⟩ <;>
      rcases hopened u' _ hu' with ⟨hu'', hi⟩ | ⟨-, hu'⟩
    · exact hu''.symm
    · exact absurd (h.below u' _ hu') (by omega)
    · exact absurd (h.below u _ hu) (by omega)
    · exact h.distinct u u' i hu hu'
  · intro j u hj
    rcases hrecord j u hj with ⟨-, rfl⟩ | ⟨-, huv, hj⟩
    · exact ⟨next, h.le, Function.update_self ..⟩
    · rw [Function.update_of_ne huv]
      exact h.recorded j u hj
  · intro j j' u hj hj'
    rcases hrecord j u hj with ⟨rfl, rfl⟩ | ⟨-, hu, hj⟩ <;>
      rcases hrecord j' _ hj' with ⟨rfl, hu'⟩ | ⟨-, hu', hj'⟩
    · rfl
    · exact absurd rfl hu'
    · exact absurd hu' hu
    · exact h.keys j j' u hj hj'
  · intro i hold hi
    by_cases hin : i = next
    · exact .inr ⟨k, v, Function.update_self .., by rw [Function.update_self, hin]⟩
    · rcases h.fate i hold (by omega) with hreleased | ⟨j, u, hj, hu⟩
      · exact .inl hreleased
      · refine .inr ⟨j, u, ?_, ?_⟩
        · rw [Function.update_of_ne (by rintro rfl; rw [hk] at hj; cases hj), hj]
        · rw [Function.update_of_ne (by rintro rfl; rw [hv] at hu; cases hu), hu]
  · intro u i hu hold
    rcases hopened u i hu with ⟨-, rfl⟩ | ⟨-, hu⟩
    · exact h.unused _ (Nat.le_refl _)
    · exact h.unreleased u i hu hold
  · intro i hi
    exact h.unused i (by omega)

theorem release (h : Held old next released record opened) (hk : record k = some v)
    (hv : opened v = some n) :
    Held old next (bump n released) (Function.update record k none)
      (Function.update opened v none) := by
  have hother : ∀ u i, u ≠ v → opened u = some i → i ≠ n := fun u i huv hu hin =>
    huv (h.distinct u v n (hin ▸ hu) hv)
  refine ⟨h.le, ?_, ?_, ?_, ?_, ?_, ?_, ?_⟩
  · exact fun u i hu => h.below u i (of_update_none hu).2
  · exact fun u u' i hu hu' => h.distinct u u' i (of_update_none hu).2 (of_update_none hu').2
  · intro j u hj
    obtain ⟨hjk, hj⟩ := of_update_none hj
    obtain ⟨i, hold, hi⟩ := h.recorded j u hj
    refine ⟨i, hold, ?_⟩
    rw [Function.update_of_ne fun huv : u = v => hjk (h.keys j k v (huv ▸ hj) hk), hi]
  · exact fun j j' u hj hj' => h.keys j j' u (of_update_none hj).2 (of_update_none hj').2
  · intro i hold hi
    by_cases hin : i = n
    · left
      rw [hin, bump_self, h.unreleased v n hv (hin ▸ hold)]
    · rw [bump_of_ne hin]
      refine (h.fate i hold hi).imp_right fun ⟨j, u, hj, hu⟩ => ⟨j, u, ?_, ?_⟩
      · rw [Function.update_of_ne, hj]
        rintro rfl
        rw [hk, Option.some.injEq] at hj
        rw [← hj, hv, Option.some.injEq] at hu
        exact hin hu.symm
      · rw [Function.update_of_ne, hu]
        rintro rfl
        rw [hv, Option.some.injEq] at hu
        exact hin hu.symm
  · intro u i hu hold
    obtain ⟨huv, hu⟩ := of_update_none hu
    rw [bump_of_ne (hother u i huv hu)]
    exact h.unreleased u i hu hold
  · intro i hi
    have := h.below v n hv
    rw [bump_of_ne (by omega)]
    exact h.unused i hi

end Held

end Custody
