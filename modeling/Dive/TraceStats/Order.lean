import Dive.TraceStats.Categories

/-!
# The order statistics of a list

* `median`: the middle element of an ascending list, or the mean of the two middle ones.
* `IsOrderStats`: what the four statistics of a list are to be.
* `foldl_select`: what a loop selects from a list.
* `gatherMedian_iff`: when the mean of the middle elements survives the sum in their type and the
  conversion to `float`.
* **`isOrderStats_iff`**: the statistics are right exactly when the sums fit.
-/

namespace Dive.TraceStats

/-! ## The law -/

/-- The two middle elements of an ascending list of even length, added. -/
def middleSum (sorted : List ℕ) : ℕ :=
  sorted.getD (sorted.length / 2 - 1) 0 + sorted.getD (sorted.length / 2) 0

/-- The median of an ascending list. -/
def median (sorted : List ℕ) : ℕ :=
  if sorted.length % 2 ≠ 0 then sorted.getD (sorted.length / 2) 0 else middleSum sorted / 2

variable {w : ℕ}

/-- The elements in ascending order. -/
def ascending (array : List (BitVec w)) : List ℕ := (array.map BitVec.toNat).mergeSort

structure IsOrderStats (array : List (BitVec w)) (stats : OrderStats) : Prop where
  min_le_median : stats.min ≤ stats.median
  median_le_max : stats.median ≤ stats.max
  median_eq : ∃ sorted : List ℕ, sorted.Perm (array.map BitVec.toNat) ∧ sorted.SortedLE ∧
    stats.median = median sorted
  min_mem : stats.min ∈ array.map BitVec.toNat
  min_le : ∀ x ∈ array, stats.min ≤ x.toNat
  max_mem : stats.max ∈ array.map BitVec.toNat
  le_max : ∀ x ∈ array, x.toNat ≤ stats.max
  total : stats.total = (array.map BitVec.toNat).sum

/-- The sum fits the total; that of the two middle elements fits their type, and keeps its half as a
`float`. -/
structure SumsFit (array : List (BitVec w)) : Prop where
  total : (array.map BitVec.toNat).sum < 2 ^ 64
  middle : array.length % 2 = 0 → middleSum (ascending array) < 2 ^ w ∧
    Significand.KeepsHalf 24 (middleSum (ascending array))

/-! ## The extremes -/

theorem foldl_select {op : ℕ → ℕ → ℕ} {r : ℕ → ℕ → Prop} (hrefl : ∀ a, r a a)
    (htrans : ∀ {a b c}, r a b → r b c → r a c)
    (hop : ∀ a b, (op a b = a ∨ op a b = b) ∧ r (op a b) a ∧ r (op a b) b) (x : ℕ) (l : List ℕ) :
    l.foldl op x ∈ x :: l ∧ ∀ y ∈ x :: l, r (l.foldl op x) y := by
  induction l generalizing x with
  | nil => simp [hrefl]
  | cons z l ih =>
    have hsel := hop x z
    have hrest := ih (op x z)
    rw [List.foldl_cons]
    constructor
    · rcases List.mem_cons.mp hrest.1 with h | h
      · rw [h, List.mem_cons, List.mem_cons]
        exact hsel.1.imp id .inl
      · exact List.mem_cons_of_mem _ (List.mem_cons_of_mem _ h)
    · have hhead := hrest.2 _ List.mem_cons_self
      refine List.forall_mem_cons.mpr ⟨htrans hhead hsel.2.1, ?_⟩
      refine List.forall_mem_cons.mpr ⟨htrans hhead hsel.2.2, fun y hy => ?_⟩
      exact hrest.2 y (List.mem_cons_of_mem _ hy)

theorem foldl_min_spec (x : ℕ) (l : List ℕ) :
    l.foldl min x ∈ x :: l ∧ ∀ y ∈ x :: l, l.foldl min x ≤ y :=
  foldl_select (r := fun a b => a ≤ b) Nat.le_refl Nat.le_trans
    (fun a b => ⟨min_choice a b, Nat.min_le_left a b, Nat.min_le_right a b⟩) x l

theorem foldl_max_spec (x : ℕ) (l : List ℕ) :
    l.foldl max x ∈ x :: l ∧ ∀ y ∈ x :: l, y ≤ l.foldl max x :=
  foldl_select (r := fun a b => b ≤ a) Nat.le_refl (fun hab hbc => Nat.le_trans hbc hab)
    (fun a b => ⟨max_choice a b, Nat.le_max_left a b, Nat.le_max_right a b⟩) x l

variable {array : List (BitVec w)}

theorem ascending_perm (array : List (BitVec w)) :
    (ascending array).Perm (array.map BitVec.toNat) := List.mergeSort_perm _ _

theorem sortedLE_ascending (array : List (BitVec w)) : (ascending array).SortedLE :=
  List.sortedLE_mergeSort

theorem length_ascending (array : List (BitVec w)) : (ascending array).length = array.length := by
  rw [(ascending_perm array).length_eq, List.length_map]

theorem ascending_ne_nil (h : array ≠ []) : ascending array ≠ [] := by
  rw [ne_eq, ← List.length_eq_zero_iff, length_ascending, List.length_eq_zero_iff]
  exact h

theorem headD_cons_tail {l : List ℕ} (h : l ≠ []) : l.headD 0 :: l.tail = l := by
  cases l with
  | nil => exact absurd rfl h
  | cons x l => rfl

theorem extremes (h : array ≠ []) :
    ((gatherTotalMinMaxMedian array).min ∈ array.map BitVec.toNat ∧
      ∀ x ∈ array, (gatherTotalMinMaxMedian array).min ≤ x.toNat) ∧
    (gatherTotalMinMaxMedian array).max ∈ array.map BitVec.toNat ∧
      ∀ x ∈ array, x.toNat ≤ (gatherTotalMinMaxMedian array).max := by
  have hne := ascending_ne_nil h
  have hmem : ∀ y, y ∈ ascending array ↔ y ∈ array.map BitVec.toNat :=
    fun y => (ascending_perm array).mem_iff
  have hall : ∀ x ∈ array, x.toNat ∈ ascending array :=
    fun x hx => (hmem _).mpr (List.mem_map_of_mem hx)
  have hmin := foldl_min_spec ((ascending array).headD 0) (ascending array).tail
  have hmax := foldl_max_spec ((ascending array).headD 0) (ascending array).tail
  rw [headD_cons_tail hne] at hmin hmax
  exact ⟨⟨(hmem _).mp hmin.1, fun x hx => hmin.2 _ (hall x hx)⟩, (hmem _).mp hmax.1,
    fun x hx => hmax.2 _ (hall x hx)⟩

/-! ## The total -/

theorem foldl_total (l : List ℕ) (n : ℕ) :
    l.foldl (fun sum x => (sum + x) % 2 ^ 64) (n % 2 ^ 64) = (n + l.sum) % 2 ^ 64 := by
  induction l generalizing n with
  | nil => rfl
  | cons x l ih => rw [List.foldl_cons, Nat.mod_add_mod, ih, List.sum_cons, Nat.add_assoc]

theorem total_iff : (gatherTotalMinMaxMedian array).total = (array.map BitVec.toNat).sum ↔
    (array.map BitVec.toNat).sum < 2 ^ 64 := by
  have htotal : (gatherTotalMinMaxMedian array).total = (0 + (ascending array).sum) % 2 ^ 64 :=
    foldl_total (ascending array) 0
  rw [htotal, Nat.zero_add, (ascending_perm array).sum_eq]
  exact Nat.mod_eq_iff_lt (by decide)

/-! ## The median -/

theorem round_mod_div_two_iff {s : ℕ} (hs : s ≤ 2 * (2 ^ w - 1)) :
    Significand.round 24 (s % 2 ^ w) / 2 = s / 2 ↔ s < 2 ^ w ∧ Significand.KeepsHalf 24 s := by
  by_cases hlt : s < 2 ^ w
  · rw [Nat.mod_eq_of_lt hlt, Significand.round_div_two_iff, and_iff_right hlt]
  · refine iff_of_false (fun h => ?_) fun h => hlt h.1
    -- what is left of the sum is less than what is lost
    have hmod : s % 2 ^ w = s - 2 ^ w := by
      rw [Nat.mod_eq_sub_mod (Nat.not_lt.mp hlt), Nat.mod_eq_of_lt]
      have := Nat.two_pow_pos w
      omega
    have hround := Significand.two_mul_round_le (p := 24) (by decide) (s % 2 ^ w)
    rw [hmod] at h hround
    omega

theorem getD_lt (array : List (BitVec w)) (i : ℕ) : (ascending array).getD i 0 < 2 ^ w := by
  rcases Nat.lt_or_ge i (ascending array).length with hi | hi
  · rw [List.getD_eq_getElem _ 0 hi]
    obtain ⟨x, -, hx⟩ :=
      List.mem_map.mp ((ascending_perm array).mem_iff.mp (List.getElem_mem hi))
    rw [← hx]
    exact x.isLt
  · rw [List.getD_eq_default _ 0 hi]
    exact Nat.two_pow_pos w

theorem middleSum_le (array : List (BitVec w)) :
    middleSum (ascending array) ≤ 2 * (2 ^ w - 1) := by
  have h := getD_lt array ((ascending array).length / 2 - 1)
  have h' := getD_lt array ((ascending array).length / 2)
  rw [middleSum]
  omega

theorem gatherTotalMinMaxMedian_median : (gatherTotalMinMaxMedian array).median =
    if (ascending array).length % 2 ≠ 0 then
      (ascending array).getD ((ascending array).length / 2) 0
    else Significand.round 24 (middleSum (ascending array) % 2 ^ w) / 2 := rfl

theorem gatherMedian_iff : (gatherTotalMinMaxMedian array).median = median (ascending array) ↔
    (array.length % 2 = 0 → middleSum (ascending array) < 2 ^ w ∧
      Significand.KeepsHalf 24 (middleSum (ascending array))) := by
  rw [← round_mod_div_two_iff (middleSum_le array), ← length_ascending array]
  rw [gatherTotalMinMaxMedian_median, median]
  split_ifs with hodd
  · exact iff_of_true rfl fun h => absurd h hodd
  · rw [not_not] at hodd
    exact ⟨fun h _ => h, fun h => h hodd⟩

theorem median_mem {l : List ℕ} (h : l ≠ []) {a b : ℕ} (ha : ∀ x ∈ l, a ≤ x)
    (hb : ∀ x ∈ l, x ≤ b) : a ≤ median l ∧ median l ≤ b := by
  have hpos := List.length_pos_of_ne_nil h
  have hget : ∀ i, i < l.length → a ≤ l.getD i 0 ∧ l.getD i 0 ≤ b := fun i hi => by
    rw [List.getD_eq_getElem l 0 hi]
    exact ⟨ha _ (List.getElem_mem hi), hb _ (List.getElem_mem hi)⟩
  have hmid := hget (l.length / 2) (by omega)
  have hbelow := hget (l.length / 2 - 1) (by omega)
  rw [median, middleSum]
  split_ifs
  · exact hmid
  · omega

/-- **The order statistics** are right exactly when the sums fit. -/
theorem isOrderStats_iff (array : List (BitVec w)) (h : array ≠ []) :
    IsOrderStats array (gatherTotalMinMaxMedian array) ↔ SumsFit array := by
  have hextremes := extremes h
  constructor
  · intro hstats
    refine ⟨total_iff.mp hstats.total, gatherMedian_iff.mp ?_⟩
    obtain ⟨sorted, hperm, hsorted, hmedian⟩ := hstats.median_eq
    rw [hmedian, List.Perm.eq_of_sortedLE hsorted (sortedLE_ascending array)
      (hperm.trans (ascending_perm array).symm)]
  · intro hfit
    have hmedian := gatherMedian_iff.mpr hfit.middle
    have hall : ∀ y ∈ ascending array, ∃ x ∈ array, x.toNat = y := fun y hy =>
      List.mem_map.mp ((ascending_perm array).mem_iff.mp hy)
    have hbounds := @median_mem (ascending array) (ascending_ne_nil h)
      (gatherTotalMinMaxMedian array).min (gatherTotalMinMaxMedian array).max
    rw [← hmedian] at hbounds
    have hbetween := hbounds
      (fun y hy => by
        obtain ⟨x, hx, rfl⟩ := hall y hy
        exact hextremes.1.2 x hx)
      (fun y hy => by
        obtain ⟨x, hx, rfl⟩ := hall y hy
        exact hextremes.2.2 x hx)
    exact ⟨hbetween.1, hbetween.2, ⟨_, ascending_perm array, sortedLE_ascending array, hmedian⟩,
      hextremes.1.1, hextremes.1.2, hextremes.2.1, hextremes.2.2, total_iff.mpr hfit.total⟩

/-- Three counts. -/
theorem isOrderStats_three :
    IsOrderStats [3, 1, (2 : BitVec 32)] (gatherTotalMinMaxMedian [3, 1, (2 : BitVec 32)]) :=
  (isOrderStats_iff [3, 1, 2] (List.cons_ne_nil _ _)).mpr
    ⟨by decide, fun h => absurd h (by decide)⟩

/-- Two counts of `2 ^ 31` indices, whose sum is 0 in 32 bits. -/
theorem halves_not_isOrderStats :
    ¬IsOrderStats [0x80000000, (0x80000000 : BitVec 32)]
      (gatherTotalMinMaxMedian [0x80000000, (0x80000000 : BitVec 32)]) := by
  intro h
  have hsorted : ascending [0x80000000, (0x80000000 : BitVec 32)] = [0x80000000, 0x80000000] :=
    List.mergeSort_of_pairwise (by decide)
  have hmedian := @gatherTotalMinMaxMedian_median 32 [0x80000000, 0x80000000]
  rw [hsorted] at hmedian
  have hzero : (gatherTotalMinMaxMedian [0x80000000, (0x80000000 : BitVec 32)]).median = 0 :=
    hmedian.trans (by decide)
  have hle := h.min_le_median
  rw [hzero] at hle
  have hmin := h.min_mem
  rw [Nat.le_zero.mp hle] at hmin
  exact absurd hmin (by decide)

end Dive.TraceStats
