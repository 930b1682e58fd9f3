import Mathlib.Data.List.Basic

/-!
# At most one element of a list has a property

* `Holds p l w`: `w` is the only element of `l` with `p`, with its index, if there is one.
* **`Holds.eq_of`**: an element with `p` is that one.
* `Holds.set_other`, `Holds.take`, `Holds.go`, `Holds.release`: what a change of one element does.
-/

namespace Holder

variable {α : Type*} (p : α → Bool)

/-- **At most one element has `p`**, and `w` says which. -/
inductive Holds (l : List α) : Option (ℕ × α) → Prop
  | free (h : ∀ a ∈ l, p a = false) : Holds l none
  | held {i : ℕ} {a : α} (hi : l[i]? = some a) (ha : p a = true)
      (h : ∀ (j : ℕ) (b : α), l[j]? = some b → p b = true → j = i) : Holds l (some (i, a))

variable {p} {l : List α} {w : Option (ℕ × α)} {i : ℕ} {a b : α}

theorem Holds.eq_of (h : Holds p l w) (hi : l[i]? = some a) (ha : p a = true) :
    w = some (i, a) := by
  cases h with
  | free h => rw [h a (List.mem_of_getElem? hi)] at ha; exact absurd ha Bool.false_ne_true
  | held hj hb h =>
    obtain rfl := h i a hi ha
    rw [hi] at hj
    rw [Option.some.inj hj]

theorem Holds.append (h : Holds p l w) (hb : p b = false) : Holds p (l ++ [b]) w := by
  cases h with
  | free h =>
    refine .free fun a ha => ?_
    rcases List.mem_append.mp ha with ha | ha
    · exact h a ha
    · rw [List.mem_singleton.mp ha]
      exact hb
  | held hi ha h =>
    refine .held ((List.getElem?_append_left (List.getElem?_eq_some_iff.mp hi).1).trans hi) ha ?_
    intro j c hj hc
    rw [List.getElem?_append] at hj
    split_ifs at hj
    · exact h j c hj hc
    · obtain rfl : c = b := by
        have hmem := List.mem_of_getElem? hj
        rwa [List.mem_singleton] at hmem
      rw [hb] at hc
      exact absurd hc Bool.false_ne_true

theorem Holds.set_other (h : Holds p l w) (hi : l[i]? = some a) (ha : p a = false)
    (hb : p b = false) : Holds p (l.set i b) w := by
  cases h with
  | free h =>
    refine .free fun c hc => ?_
    rcases List.mem_or_eq_of_mem_set hc with hc | rfl
    · exact h c hc
    · exact hb
  | @held j c hj hc h =>
    have hne : i ≠ j := by
      rintro rfl
      rw [hi] at hj
      rw [Option.some.inj hj, hc] at ha
      exact Bool.false_ne_true ha.symm
    refine .held ((List.getElem?_set_ne hne).trans hj) hc fun k d hk hd => ?_
    rw [List.getElem?_set] at hk
    split_ifs at hk
    · cases hk
      rw [hb] at hd
      exact absurd hd Bool.false_ne_true
    · exact h k d hk hd

theorem Holds.take (h : Holds p l none) (hi : l[i]? = some a) (hb : p b = true) :
    Holds p (l.set i b) (some (i, b)) := by
  cases h with
  | free h =>
    refine .held (List.getElem?_set_self (List.getElem?_eq_some_iff.mp hi).1) hb ?_
    intro j c hj hc
    rw [List.getElem?_set] at hj
    split_ifs at hj with hij
    · exact hij.symm
    · rw [h c (List.mem_of_getElem? hj)] at hc
      exact absurd hc Bool.false_ne_true

theorem Holds.go (h : Holds p l (some (i, a))) (hb : p b = true) :
    Holds p (l.set i b) (some (i, b)) := by
  cases h with
  | held hi ha h =>
    refine .held (List.getElem?_set_self (List.getElem?_eq_some_iff.mp hi).1) hb ?_
    intro j c hj hc
    rw [List.getElem?_set] at hj
    split_ifs at hj with hij
    · exact hij.symm
    · exact h j c hj hc

theorem Holds.release (h : Holds p l (some (i, a))) (hb : p b = false) :
    Holds p (l.set i b) none := by
  cases h with
  | held hi ha h =>
    refine .free fun c hc => ?_
    obtain ⟨j, hj⟩ := List.mem_iff_getElem?.mp hc
    rw [List.getElem?_set] at hj
    split_ifs at hj with hij
    · cases hj
      exact hb
    · by_contra hne
      exact hij (h j c hj (Bool.not_eq_false _ ▸ hne)).symm

end Holder
