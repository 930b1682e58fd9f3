import Mathlib.Order.Interval.Finset.Nat
import Mathlib.Algebra.BigOperators.Group.List.Basic
import Mathlib.Algebra.GroupWithZero.Nat

/-!
# Half-open extents of natural numbers

* `Extent`, membership, `Extent.Apart` (no common address), `Extent.Covers` (a list of extents
  reaches an address);
* `Extent.overlap`: the number of addresses two extents share;
* **`Extent.sum_overlap_eq_iff`**: pairwise separate extents cover `q` exactly when the lengths of
  their overlaps with `q` add up to the length of `q`;
* `Extent.chain`, `Extent.chainStop`: the extents of a list that go on without a gap;
  **`Extent.not_covers_chainStop`**: in an ordered list nothing holds the address where they end.
-/

/-- The addresses `start, …, start + len - 1`. -/
structure Extent where
  start : ℕ
  len : ℕ
  deriving DecidableEq, Repr

namespace Extent

/-- The first address after the extent. -/
def stop (e : Extent) : ℕ := e.start + e.len

instance : Membership ℕ Extent := ⟨fun e a => e.start ≤ a ∧ a < e.stop⟩

theorem mem_def {a : ℕ} {e : Extent} : a ∈ e ↔ e.start ≤ a ∧ a < e.start + e.len := Iff.rfl

instance (a : ℕ) (e : Extent) : Decidable (a ∈ e) := inferInstanceAs (Decidable (_ ∧ _))

/-- No address is in both extents. -/
def Apart (e f : Extent) : Prop := ∀ a, a ∈ e → a ∉ f

/-- Some extent of the list holds the address. -/
def Covers (l : List Extent) (a : ℕ) : Prop := ∃ e ∈ l, a ∈ e

instance (l : List Extent) (a : ℕ) : Decidable (Covers l a) :=
  inferInstanceAs (Decidable (∃ e ∈ l, a ∈ e))

/-- The number of addresses shared with `q`. -/
def overlap (q e : Extent) : ℕ := min e.stop q.stop - max e.start q.start

theorem Apart.symm {e f : Extent} (h : Apart e f) : Apart f e := fun a hf he => h a he hf

theorem Apart.stop_le {e f : Extent} (h : Apart e f) (hf : 0 < f.len) (hs : e.start ≤ f.start) :
    e.start + e.len ≤ f.start := by
  by_contra hc
  exact h f.start (mem_def.mpr (by omega)) (mem_def.mpr (by omega))

theorem covers_cons {e : Extent} {l : List Extent} {a : ℕ} :
    Covers (e :: l) a ↔ a ∈ e ∨ Covers l a := by
  simp [Covers]

theorem Covers.mono {l l' : List Extent} {a : ℕ} (h : Covers l a) (hl : l ⊆ l') : Covers l' a :=
  let ⟨e, he, ha⟩ := h
  ⟨e, hl he, ha⟩

theorem overlap_eq_zero {q e : Extent} (h : overlap q e = 0) {a : ℕ} (ha : a ∈ q) : a ∉ e := by
  intro he
  rw [mem_def] at ha he
  simp only [overlap, stop] at h
  omega

/-- The addresses of an extent, as a finite set. -/
def cells (q : Extent) : Finset ℕ := Finset.Ico q.start q.stop

theorem card_cells_mem (q e : Extent) : (q.cells.filter (· ∈ e)).card = overlap q e := by
  have h : q.cells.filter (· ∈ e) = Finset.Ico (max e.start q.start) (min e.stop q.stop) := by
    ext a
    simp only [cells, Finset.mem_filter, Finset.mem_Ico, mem_def, stop]
    omega
  rw [h, Nat.card_Ico, overlap]

theorem card_cells_covers {l : List Extent} (q : Extent) (h : l.Pairwise Apart) :
    (q.cells.filter (Covers l)).card = (l.map (overlap q)).sum := by
  induction l with
  | nil => simp [Covers]
  | cons e l ih =>
    rw [List.pairwise_cons] at h
    have hsplit : q.cells.filter (Covers (e :: l)) =
        q.cells.filter (· ∈ e) ∪ q.cells.filter (Covers l) := by
      ext a
      simp only [Finset.mem_filter, Finset.mem_union, covers_cons]
      tauto
    rw [hsplit, Finset.card_union_of_disjoint, card_cells_mem, ih h.2, List.map_cons, List.sum_cons]
    rw [Finset.disjoint_filter]
    rintro a - he ⟨f, hf, ha⟩
    exact h.1 f hf a he ha

theorem sum_overlap_le {l : List Extent} (q : Extent) (h : l.Pairwise Apart) :
    (l.map (overlap q)).sum ≤ q.len := by
  rw [← card_cells_covers q h]
  calc (q.cells.filter (Covers l)).card ≤ q.cells.card := Finset.card_filter_le _ _
    _ = q.len := by rw [cells, Nat.card_Ico, stop]; omega

/-- **Counting decides coverage**: pairwise separate extents cover `q` exactly when their overlaps
with `q` add up to its length. -/
theorem sum_overlap_eq_iff {l : List Extent} (q : Extent) (h : l.Pairwise Apart) :
    (l.map (overlap q)).sum = q.len ↔ ∀ a ∈ q, Covers l a := by
  have hq : q.cells.card = q.len := by rw [cells, Nat.card_Ico, stop]; omega
  rw [← card_cells_covers q h, ← hq, Finset.card_filter_eq_iff]
  simp only [cells, Finset.mem_Ico, stop]
  rfl

/-! ## Chains -/

section Chain

variable {α : Type*} (f : α → Extent)

/-- The elements that go on, one after the other, from `cur`. -/
def chain : ℕ → List α → List α
  | _, [] => []
  | cur, a :: l => if (f a).start = cur then a :: chain (f a).stop l else []

/-- Where they end. -/
def chainStop : ℕ → List α → ℕ
  | cur, [] => cur
  | cur, a :: l => if (f a).start = cur then chainStop (f a).stop l else cur

variable {f}

theorem chainStop_eq_add : ∀ (cur : ℕ) (l : List α),
    chainStop f cur l = cur + ((chain f cur l).map fun a => (f a).len).sum
  | _, [] => rfl
  | cur, a :: l => by
    unfold chainStop chain
    split_ifs with h
    · rw [chainStop_eq_add, List.map_cons, List.sum_cons, stop, h, Nat.add_assoc]
    · rfl

theorem le_chainStop (cur : ℕ) (l : List α) : cur ≤ chainStop f cur l := by
  rw [chainStop_eq_add]
  exact Nat.le_add_right _ _

/-- **The end of a chain**, in a list that is in order. -/
theorem not_covers_chainStop : ∀ {cur : ℕ} {l : List α},
    l.Pairwise (fun a b => (f a).stop ≤ (f b).start) → (∀ a ∈ l, cur ≤ (f a).start) →
    ¬ Covers (l.map f) (chainStop f cur l)
  | cur, [], _, _ => fun ⟨_, he, _⟩ => absurd he List.not_mem_nil
  | cur, a :: l, hl, hcur => by
    obtain ⟨hfirst, hrest⟩ := List.pairwise_cons.mp hl
    have hstart := hcur a List.mem_cons_self
    unfold chainStop
    rw [List.map_cons, covers_cons]
    split_ifs with h
    · rintro (hmem | hcovers)
      · have hle : (f a).stop ≤ chainStop f (f a).stop l := le_chainStop _ l
        exact absurd (mem_def.mp hmem).2 (not_lt.mpr hle)
      · exact not_covers_chainStop hrest hfirst hcovers
    · have hbelow : cur < (f a).start := lt_of_le_of_ne hstart (Ne.symm h)
      rintro (hmem | ⟨e, he, hmem⟩)
      · exact absurd (mem_def.mp hmem).1 (not_le.mpr hbelow)
      · obtain ⟨b, hb, rfl⟩ := List.mem_map.mp he
        have hlater := hfirst b hb
        have hstop : (f a).stop = (f a).start + (f a).len := rfl
        have hmemStart := (mem_def.mp hmem).1
        omega

end Chain

end Extent
