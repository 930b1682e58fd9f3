import Dive.Lib.Preorder
import Mathlib.Data.List.Perm.Basic
import Mathlib.Data.List.Nodup
import Mathlib.Data.List.Range

/-!
# Trees that grow by one node at a time

A node gets an empty child list when it is made, and is appended to the list of an earlier node when
it is attached.

* `childrenIn`: the children of a node in a list of child lists.
* `Planted`: each node but the first is attached once, to an earlier one, or is still pending.
* `Planted.addNode`, `Planted.addChild`: the two steps.
* **`Planted.exists_parent`**, **`Planted.unique`**: each attached node has one parent.
* **`Planted.below`**: a stretch of nodes with parents inside it is below its first node.
-/

namespace Planting

open Relation (ReflTransGen TransGen)

/-- The children of a node; a node without a list has none. -/
def childrenIn (lists : List (List ℕ)) (p : ℕ) : List ℕ := (lists[p]?).getD []

/-- **Each node but the first is attached once, to an earlier node**, or pending. -/
structure Planted (lists : List (List ℕ)) (pending : List ℕ) : Prop where
  perm : (lists.flatten ++ pending).Perm (List.range' 1 (lists.length - 1))
  lt : ∀ p c, c ∈ childrenIn lists p → p < c
  pos : 0 < lists.length

variable {lists : List (List ℕ)} {pending : List ℕ} {p q c n start stop : ℕ}

theorem childrenIn_of_lt (h : p < lists.length) : childrenIn lists p = lists[p] := by
  simp [childrenIn, h]

theorem childrenIn_of_length_le (h : lists.length ≤ p) : childrenIn lists p = [] := by
  simp [childrenIn, h]

theorem childrenIn_append_left {lists' : List (List ℕ)} (h : p < lists.length) :
    childrenIn (lists ++ lists') p = childrenIn lists p := by
  rw [childrenIn, List.getElem?_append_left h]
  rfl

theorem childrenIn_append_right {lists' : List (List ℕ)} (h : lists.length ≤ p) :
    childrenIn (lists ++ lists') p = childrenIn lists' (p - lists.length) := by
  rw [childrenIn, List.getElem?_append_right h]
  rfl

theorem map_childrenIn (lists : List (List ℕ)) :
    (List.range lists.length).map (childrenIn lists) = lists := by
  apply List.ext_getElem
  · simp
  · intro p _ hp
    rw [List.getElem_map, List.getElem_range, childrenIn_of_lt hp]

theorem mem_flatten_iff : c ∈ lists.flatten ↔ ∃ p, c ∈ childrenIn lists p := by
  rw [List.mem_flatten]
  constructor
  · rintro ⟨l, hl, hc⟩
    obtain ⟨p, hp⟩ := List.mem_iff_getElem?.mp hl
    exact ⟨p, by rw [childrenIn, hp]; exact hc⟩
  · rintro ⟨p, hc⟩
    cases hp : lists[p]? with
    | none => simp [childrenIn, hp] at hc
    | some l => exact ⟨l, List.mem_of_getElem? hp, by simpa [childrenIn, hp] using hc⟩

/-! ## The two steps -/

theorem childrenIn_addNode (p : ℕ) : childrenIn (lists ++ [[]]) p = childrenIn lists p := by
  unfold childrenIn
  rcases Nat.lt_trichotomy p lists.length with hlt | rfl | hgt
  · rw [List.getElem?_append_left hlt]
  · simp
  · rw [List.getElem?_eq_none (by simp; omega), List.getElem?_eq_none (by omega)]

theorem childrenIn_addChild (hp : p < lists.length) (q : ℕ) :
    childrenIn (lists.modify p (· ++ [c])) q =
      if p = q then childrenIn lists q ++ [c] else childrenIn lists q := by
  unfold childrenIn
  rw [List.getElem?_modify]
  split_ifs with h
  · subst h
    simp [hp]
  · simp

theorem flatten_modify_perm : ∀ {lists : List (List ℕ)} {p : ℕ}, p < lists.length →
    (lists.modify p (· ++ [c])).flatten.Perm (c :: lists.flatten)
  | l :: lists, 0, _ => by
    rw [List.modify_zero_cons, List.flatten_cons, List.flatten_cons, List.append_assoc]
    exact List.perm_middle
  | l :: lists, p + 1, h => by
    rw [List.modify_succ_cons, List.flatten_cons, List.flatten_cons]
    have hrest := @flatten_modify_perm lists p (Nat.lt_of_succ_lt_succ h)
    exact (hrest.append_left l).trans List.perm_middle

theorem planted_root : Planted [[]] [] where
  perm := .refl []
  lt := by
    intro p c hc
    cases p <;> simp [childrenIn] at hc
  pos := Nat.zero_lt_one

namespace Planted

theorem addNode (h : Planted lists pending) :
    Planted (lists ++ [[]]) (lists.length :: pending) where
  perm := by
    have hpos := h.pos
    have hlength : (lists ++ [[]]).length - 1 = lists.length - 1 + 1 := by
      rw [List.length_append, List.length_singleton]
      omega
    rw [List.flatten_append, hlength, List.range'_1_concat]
    have hnew : 1 + (lists.length - 1) = lists.length := by omega
    rw [hnew]
    simp only [List.flatten_cons, List.flatten_nil, List.append_nil]
    exact List.perm_middle.trans ((h.perm.cons _).trans (List.perm_append_singleton _ _).symm)
  lt := by
    intro p c hc
    rw [childrenIn_addNode] at hc
    exact h.lt p c hc
  pos := by simp

theorem addChild (h : Planted lists (c :: pending)) (hp : p < lists.length) (hlt : p < c) :
    Planted (lists.modify p (· ++ [c])) pending where
  perm := by
    rw [List.length_modify]
    refine List.Perm.trans ?_ h.perm
    exact ((flatten_modify_perm hp).append_right pending).trans List.perm_middle.symm
  lt := by
    intro q d hd
    rw [childrenIn_addChild hp] at hd
    split_ifs at hd with hq
    · rcases List.mem_append.mp hd with hd | hd
      · exact h.lt q d hd
      · rw [List.mem_singleton.mp hd, ← hq]
        exact hlt
    · exact h.lt q d hd
  pos := by
    rw [List.length_modify]
    exact h.pos

variable (h : Planted lists pending)
include h

/-! ## Parents -/

theorem nodup : (lists.flatten ++ pending).Nodup := h.perm.nodup_iff.mpr List.nodup_range'

theorem child_bounds (hc : c ∈ childrenIn lists p) : p < c ∧ c < lists.length := by
  have hmem := h.perm.mem_iff.mp (List.mem_append_left _ (mem_flatten_iff.mpr ⟨p, hc⟩))
  rw [List.mem_range'_1] at hmem
  have hpos := h.pos
  exact ⟨h.lt p c hc, by omega⟩

/-- **An attached node has a parent.** -/
theorem exists_parent (hpos : 0 < c) (hlt : c < lists.length) (hpending : c ∉ pending) :
    ∃ p, c ∈ childrenIn lists p := by
  have hmem : c ∈ lists.flatten ++ pending := by
    rw [h.perm.mem_iff, List.mem_range'_1]
    omega
  rcases List.mem_append.mp hmem with hmem | hmem
  · exact mem_flatten_iff.mp hmem
  · exact absurd hmem hpending

theorem nodup_childrenIn (p : ℕ) : (childrenIn lists p).Nodup := by
  unfold childrenIn
  cases hp : lists[p]? with
  | none => exact List.nodup_nil
  | some l =>
    exact (List.nodup_flatten.mp (List.nodup_append.mp h.nodup).1).1 l (List.mem_of_getElem? hp)

/-- **No node has two parents.** -/
theorem unique (hp : c ∈ childrenIn lists p) (hq : c ∈ childrenIn lists q) : p = q := by
  have hdisjoint := (List.nodup_flatten.mp (List.nodup_append.mp h.nodup).1).2
  by_contra hne
  have hget : ∀ {r : ℕ}, c ∈ childrenIn lists r → ∃ hr : r < lists.length, c ∈ lists[r] := by
    intro r hr
    rcases Nat.lt_or_ge r lists.length with hlt | hge
    · exact ⟨hlt, by rwa [childrenIn_of_lt hlt] at hr⟩
    · simp [childrenIn, List.getElem?_eq_none hge] at hr
  obtain ⟨hp', hcp⟩ := hget hp
  obtain ⟨hq', hcq⟩ := hget hq
  rw [List.pairwise_iff_getElem] at hdisjoint
  rcases Nat.lt_or_gt_of_ne hne with hlt | hlt
  · exact hdisjoint p q hp' hq' hlt hcp hcq
  · exact hdisjoint q p hq' hp' hlt hcq hcp

/-! ## Descendants -/

theorem le_of_below (hbelow : ReflTransGen (Forest.ChildOf (childrenIn lists)) n p) : p ≤ n := by
  induction hbelow with
  | refl => exact le_rfl
  | tail _ hchild ih => exact (h.lt _ _ hchild).le.trans ih

theorem acyclic (n : ℕ) : ¬ TransGen (Forest.ChildOf (childrenIn lists)) n n := by
  intro hcycle
  obtain ⟨p, hbelow, hchild⟩ := TransGen.tail'_iff.mp hcycle
  have hle := h.le_of_below hbelow
  have hlt := h.lt _ _ hchild
  omega

/-- **A stretch of attached nodes whose parents are in it is below its first node.** -/
theorem below (hstop : stop ≤ lists.length) (hpending : ∀ c, start < c → c < stop → c ∉ pending)
    (hinside : ∀ c p, start < c → c < stop → c ∈ childrenIn lists p → start ≤ p) :
    ∀ n, start ≤ n → n < stop → ReflTransGen (Forest.ChildOf (childrenIn lists)) n start := by
  intro n
  induction n using Nat.strong_induction_on with
  | h n ih =>
    intro hstart hn
    rcases Nat.eq_or_lt_of_le hstart with rfl | hlt
    · exact .refl
    · obtain ⟨p, hp⟩ := h.exists_parent (by omega) (by omega) (hpending n hlt hn)
      have hlt' := h.lt p n hp
      exact .head hp (ih p hlt' (hinside n p hlt hn hp) (by omega))

theorem below_total {a b : ℕ} (ha : ReflTransGen (Forest.ChildOf (childrenIn lists)) n a)
    (hb : ReflTransGen (Forest.ChildOf (childrenIn lists)) n b) :
    ReflTransGen (Forest.ChildOf (childrenIn lists)) a b ∨
      ReflTransGen (Forest.ChildOf (childrenIn lists)) b a :=
  ReflTransGen.total_of_right_unique (fun _ _ _ hp hq => h.unique hp hq) ha hb

end Planted

end Planting
