import Mathlib.Data.List.Induction

/-!
# A list at its latest element of a kind

* `sinceLast p l`: the suffix of `l` that starts at its last element with `p`, and all of `l` where
  there is none.
* `beforeLast p l`: what comes before that element, and nothing where there is none.
* **`sinceLast_concat`**, **`sinceLast_append`**, **`beforeLast_concat`**: what a later element, a
  later part changes.
-/

namespace List

variable {α : Type*} (p : α → Bool)

/-- The suffix from the last element with `p` on. -/
def sinceLast : List α → List α
  | [] => []
  | a :: l => if l.any p then sinceLast l else a :: l

@[simp] theorem sinceLast_nil : sinceLast p [] = [] := rfl

theorem sinceLast_suffix : ∀ l : List α, sinceLast p l <:+ l
  | [] => suffix_rfl
  | a :: l => by
    unfold sinceLast
    split_ifs
    · exact (sinceLast_suffix l).trans (suffix_cons a l)
    · exact suffix_rfl

theorem sinceLast_of_not_any {l : List α} (h : l.any p = false) : sinceLast p l = l := by
  cases l with
  | nil => rfl
  | cons a l =>
    rw [any_cons, Bool.or_eq_false_iff] at h
    simp [sinceLast, h.2]

/-- **One more part.** -/
theorem sinceLast_append (l l' : List α) :
    sinceLast p (l ++ l') = if l'.any p then sinceLast p l' else sinceLast p l ++ l' := by
  induction l with
  | nil =>
    split_ifs with h
    · rfl
    · rw [nil_append, sinceLast_of_not_any p (Bool.not_eq_true _ ▸ h)]
      rfl
  | cons a l ih =>
    rw [cons_append, sinceLast, any_append, ih]
    by_cases hl' : l'.any p
    · simp [hl']
    · by_cases hl : l.any p <;> simp [sinceLast, hl', hl]

/-- **One more element.** -/
theorem sinceLast_concat (l : List α) (a : α) :
    sinceLast p (l ++ [a]) = if p a then [a] else sinceLast p l ++ [a] := by
  rw [sinceLast_append]
  simp [sinceLast]

theorem sinceLast_eq_cons : ∀ {l : List α}, l.any p → ∃ a t, sinceLast p l = a :: t ∧ p a
  | a :: l, h => by
    by_cases hl : l.any p
    · rw [sinceLast, if_pos hl]
      exact sinceLast_eq_cons hl
    · refine ⟨a, l, by rw [sinceLast, if_neg hl], ?_⟩
      simpa [Bool.not_eq_true _ ▸ hl] using h

theorem sinceLast_filter {q : α → Bool} (hpq : ∀ a, p a → q a) (l : List α) :
    sinceLast p (l.filter q) = (sinceLast p l).filter q := by
  induction l using reverseRecOn with
  | nil => rfl
  | append_singleton l a ih =>
    rw [filter_append, sinceLast_append, sinceLast_concat, ih]
    by_cases hp : p a
    · simp [hp, hpq a hp, sinceLast]
    · by_cases hq : q a <;> simp [hp, hq]

/-- What comes before the last element with `p`. -/
def beforeLast : List α → List α
  | [] => []
  | a :: l => if l.any p then a :: beforeLast l else []

@[simp] theorem beforeLast_nil : beforeLast p [] = [] := rfl

/-- **One more element.** -/
theorem beforeLast_concat (l : List α) (a : α) :
    beforeLast p (l ++ [a]) = if p a then l else beforeLast p l := by
  induction l with
  | nil => simp [beforeLast]
  | cons b l ih =>
    rw [cons_append, beforeLast, ih, any_append]
    by_cases ha : p a
    · simp [ha]
    · simp [ha, beforeLast]

end List
