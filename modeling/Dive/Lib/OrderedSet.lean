import Mathlib.Data.List.Dedup
import Mathlib.Data.List.Perm.Basic
import Mathlib.Order.Lattice

/-!
# Sets as ascending lists

* `insert lt x set`: insertion into a list that ascends in `lt`, nothing where an equivalent element
  is there.
* `IsStrictOrder lt`: the comparison is a strict linear order; `of_key` from a key.
* `Ascending`; `mem_insertAll`, `ascending_insertAll`.
* **`insertAll_perm_dedup`**: the elements of a list, inserted into the empty set, are its distinct
  elements.
-/

namespace Dive.OrderedSet

variable {α : Type} (lt : α → α → Bool)

/-- Equivalent elements are not added. -/
def insert (x : α) : List α → List α
  | [] => [x]
  | y :: set =>
    if lt x y then x :: y :: set
    else if lt y x then y :: insert x set
    else y :: set

/-- One element of a list after the other. -/
def insertAll (l set : List α) : List α := l.foldl (fun set x => insert lt x set) set

structure IsStrictOrder : Prop where
  trans : ∀ {a b c}, lt a b = true → lt b c = true → lt a c = true
  irrefl : ∀ a, lt a a = false
  eq_of_not : ∀ {a b}, lt a b = false → lt b a = false → a = b

theorem IsStrictOrder.of_key {κ : Type} [LinearOrder κ] {lt : α → α → Bool} {key : α → κ}
    (hkey : Function.Injective key) (hlt : ∀ a b, lt a b = true ↔ key a < key b) :
    IsStrictOrder lt where
  trans hab hbc := (hlt _ _).mpr (((hlt _ _).mp hab).trans ((hlt _ _).mp hbc))
  irrefl a := Bool.eq_false_iff.mpr fun h => lt_irrefl _ ((hlt a a).mp h)
  eq_of_not hab hba := by
    refine hkey (le_antisymm (not_lt.mp fun h => ?_) (not_lt.mp fun h => ?_))
    · exact Bool.eq_false_iff.mp hba ((hlt _ _).mpr h)
    · exact Bool.eq_false_iff.mp hab ((hlt _ _).mpr h)

def Ascending (set : List α) : Prop := set.Pairwise fun a b => lt a b = true

variable {lt} (hlt : IsStrictOrder lt)

include hlt

theorem mem_insert {x z : α} {set : List α} : z ∈ insert lt x set ↔ z = x ∨ z ∈ set := by
  induction set with
  | nil => simp [insert]
  | cons y set ih =>
    rw [insert]
    split_ifs with hxy hyx
    · exact List.mem_cons
    · rw [List.mem_cons, ih, List.mem_cons]
      exact or_left_comm
    · -- the element is there
      have hx := hlt.eq_of_not (Bool.eq_false_iff.mpr hxy) (Bool.eq_false_iff.mpr hyx)
      subst hx
      rw [List.mem_cons, or_self_left]

theorem ascending_insert {x : α} {set : List α} (h : Ascending lt set) :
    Ascending lt (insert lt x set) := by
  induction set with
  | nil => exact List.pairwise_singleton _ _
  | cons y set ih =>
    have hy := List.pairwise_cons.mp h
    rw [insert]
    split_ifs with hxy hyx
    · refine List.pairwise_cons.mpr ⟨fun z hz => ?_, h⟩
      rcases List.mem_cons.mp hz with rfl | hz
      · exact hxy
      · exact hlt.trans hxy (hy.1 z hz)
    · refine List.pairwise_cons.mpr ⟨fun z hz => ?_, ih hy.2⟩
      rcases (mem_insert hlt).mp hz with rfl | hz
      · exact hyx
      · exact hy.1 z hz
    · exact h

theorem mem_insertAll {z : α} {l set : List α} : z ∈ insertAll lt l set ↔ z ∈ l ∨ z ∈ set := by
  induction l generalizing set with
  | nil => simp [insertAll]
  | cons x l ih =>
    rw [insertAll, List.foldl_cons, ← insertAll, ih, mem_insert hlt, List.mem_cons]
    exact or_left_comm.trans or_assoc.symm

theorem ascending_insertAll {l set : List α} (h : Ascending lt set) :
    Ascending lt (insertAll lt l set) := by
  induction l generalizing set with
  | nil => exact h
  | cons x l ih => exact ih (ascending_insert hlt h)

theorem Ascending.nodup {set : List α} (h : Ascending lt set) : set.Nodup := by
  refine List.Pairwise.imp (fun {a b} hab => ?_) h
  rintro rfl
  exact Bool.eq_false_iff.mp (hlt.irrefl a) hab

/-- **The distinct elements of a list.** -/
theorem insertAll_perm_dedup [DecidableEq α] (l : List α) : (insertAll lt l []).Perm l.dedup := by
  refine (List.perm_ext_iff_of_nodup ?_ (List.nodup_dedup l)).mpr fun z => ?_
  · exact (ascending_insertAll hlt List.Pairwise.nil).nodup hlt
  · rw [mem_insertAll hlt, List.mem_dedup]
    exact or_iff_left List.not_mem_nil

end Dive.OrderedSet
