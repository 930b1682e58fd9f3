import Mathlib.Data.List.Basic
import Mathlib.Data.Nat.Dist
import Mathlib.Data.Nat.ModEq

/-!
# Stepping through the search results

* `getNearestSearchNode`: the binary search of `DiveTreeView`, with a read outside the list as
  `none`; **`getNearestSearchNode_spec`**: it returns a nearest position.
* `SearchView`, `nextNodeInSearch`, `prevNodeInSearch`: the list, the iterator and the selection.
* **`steps_cyclic`**: from a result on, the steps go round the results in their order.

Positions are natural numbers: a `QList` of Qt 5 has less than `2 ^ 28` entries, so that the sum of
two positions is an `int`.
-/

namespace Dive.DiveTreeView

/-! ## The nearest result -/

section Nearest

/- `nodes` is `GetNodeSourceIndex` of each of `m_search_indexes`. -/
variable (nodes : List UInt64) (target : UInt64)

/-- `get_nearest`. -/
def getNearest (x y : ℕ) : Option ℕ := do
  let below ← nodes[x]?
  let above ← nodes[y]?
  return if above - target ≤ target - below then y else x

/-- The loop of `GetNearestSearchNode`, which goes round `fuel` times at most. -/
def searchLoop : ℕ → ℕ → ℕ → ℕ → Option ℕ
  | 0, _, _, _ => none
  | fuel + 1, left, right, mid =>
    if left < right then do
      let mid := (left + right) / 2
      let node ← nodes[mid]?
      if target = node then return mid
      else if target < node then
        if ← if 0 < mid then (nodes[mid - 1]?).map (decide <| · < target) else some false then
          getNearest nodes target (mid - 1) mid
        else searchLoop fuel left mid mid
      else
        if ← if mid < nodes.length - 1 then (nodes[mid + 1]?).map (decide <| target < ·)
            else some false then
          getNearest nodes target mid (mid + 1)
        else searchLoop fuel (mid + 1) right mid
    else some mid

/-- `GetNearestSearchNode`. A round that goes on leaves fewer positions between the bounds. -/
def getNearestSearchNode : Option ℕ :=
  if nodes.length = 0 then some 0
  else do
    if target ≤ (← nodes[0]?) then return 0
    else if (← nodes[nodes.length - 1]?) ≤ target then return nodes.length - 1
    else searchLoop nodes target nodes.length 0 nodes.length 0

end Nearest

/-- The distance of two nodes. -/
def distance (a b : UInt64) : ℕ := Nat.dist a.toNat b.toNat

/-- **A position of the list with a node that is nearest to the target.** -/
def IsNearest (nodes : List UInt64) (target : UInt64) (k : ℕ) : Prop :=
  ∃ node, nodes[k]? = some node ∧ ∀ other ∈ nodes, distance target node ≤ distance target other

section Ascending

variable {nodes : List UInt64} {target a b : UInt64} {x y k fuel left right mid : ℕ}

theorem toNat_sub_of_lt (h : a < b) : (b - a).toNat = b.toNat - a.toNat :=
  UInt64.toNat_sub_of_le b a (UInt64.le_of_lt h)

theorem isNearest_self (h : nodes[k]? = some target) : IsNearest nodes target k := by
  refine ⟨target, h, fun other _ => ?_⟩
  rw [distance, Nat.dist_self]
  exact Nat.zero_le _

variable (hasc : nodes.Pairwise (· < ·))

include hasc

theorem lt_of_positions (hx : nodes[x]? = some a) (hy : nodes[y]? = some b) (h : x < y) : a < b := by
  obtain ⟨hxlt, rfl⟩ := List.getElem?_eq_some_iff.mp hx
  obtain ⟨hylt, rfl⟩ := List.getElem?_eq_some_iff.mp hy
  exact List.pairwise_iff_getElem.mp hasc x y hxlt hylt h

theorem le_of_positions (hx : nodes[x]? = some a) (hy : nodes[y]? = some b) (h : x ≤ y) :
    a.toNat ≤ b.toNat := by
  rcases Nat.lt_or_eq_of_le h with h | rfl
  · exact (UInt64.lt_iff_toNat_lt.mp (lt_of_positions hasc hx hy h)).le
  · rw [hx] at hy
    rw [Option.some.inj hy]

theorem position_lt (hx : nodes[x]? = some a) (hy : nodes[y]? = some b) (h : a.toNat < b.toNat) :
    x < y := by
  by_contra hc
  have hle := le_of_positions hasc hy hx (not_lt.mp hc)
  omega

theorem isNearest_first (hx : nodes[0]? = some a) (h : target.toNat ≤ a.toNat) :
    IsNearest nodes target 0 := by
  refine ⟨a, hx, fun other hother => ?_⟩
  obtain ⟨j, hj⟩ := List.mem_iff_getElem?.mp hother
  have hle := le_of_positions hasc hx hj (Nat.zero_le j)
  unfold distance Nat.dist
  omega

theorem isNearest_last (hx : nodes[nodes.length - 1]? = some a) (h : a.toNat ≤ target.toNat) :
    IsNearest nodes target (nodes.length - 1) := by
  refine ⟨a, hx, fun other hother => ?_⟩
  obtain ⟨j, hj⟩ := List.mem_iff_getElem?.mp hother
  have hjlt := (List.getElem?_eq_some_iff.mp hj).1
  have hle := le_of_positions hasc hj hx (by omega)
  unfold distance Nat.dist
  omega

/-- **The nearer one of two neighbours** that the target lies between. -/
theorem getNearest_spec (hx : nodes[x]? = some a) (hy : nodes[x + 1]? = some b) (ha : a < target)
    (hb : target < b) :
    ∃ k, getNearest nodes target x (x + 1) = some k ∧ IsNearest nodes target k := by
  have hsplit : ∀ other ∈ nodes, other.toNat ≤ a.toNat ∨ b.toNat ≤ other.toNat := by
    intro other hother
    obtain ⟨j, hj⟩ := List.mem_iff_getElem?.mp hother
    rcases Nat.lt_or_ge x j with h | h
    · exact .inr (le_of_positions hasc hy hj h)
    · exact .inl (le_of_positions hasc hj hx h)
  have hanat := UInt64.lt_iff_toNat_lt.mp ha
  have hbnat := UInt64.lt_iff_toNat_lt.mp hb
  have hcompare : b - target ≤ target - a ↔
      b.toNat - target.toNat ≤ target.toNat - a.toNat := by
    rw [UInt64.le_iff_toNat_le, toNat_sub_of_lt ha, toNat_sub_of_lt hb]
  simp only [getNearest, hx, hy, Option.bind_eq_bind, Option.bind_some, Option.pure_def]
  by_cases h : b - target ≤ target - a
  · refine ⟨x + 1, by rw [if_pos h], b, hy, fun other hother => ?_⟩
    rw [hcompare] at h
    have hother := hsplit other hother
    unfold distance Nat.dist
    omega
  · refine ⟨x, by rw [if_neg h], a, hx, fun other hother => ?_⟩
    rw [hcompare] at h
    have hother := hsplit other hother
    unfold distance Nat.dist
    omega

/-- **The loop**, with the target between the nodes at its bounds. -/
theorem searchLoop_spec (hx : nodes[left]? = some a) (hy : nodes[right - 1]? = some b)
    (ha : a.toNat ≤ target.toNat) (hb : target.toNat ≤ b.toNat) (hlt : left < right)
    (hfuel : right - left ≤ fuel) :
    ∃ k, searchLoop nodes target fuel left right mid = some k ∧ IsNearest nodes target k := by
  induction fuel generalizing left right mid a b with
  | zero => omega
  | succ fuel ih =>
    have hright := (List.getElem?_eq_some_iff.mp hy).1
    obtain ⟨node, hnode⟩ : ∃ node, nodes[(left + right) / 2]? = some node :=
      ⟨_, List.getElem?_eq_getElem (by omega)⟩
    simp only [searchLoop, if_pos hlt, hnode, Option.bind_eq_bind, Option.bind_some]
    generalize hm : (left + right) / 2 = m at hnode ⊢
    by_cases heq : target = node
    · rw [if_pos heq]
      exact ⟨m, rfl, isNearest_self (heq ▸ hnode)⟩
    rw [if_neg heq]
    have hne : target.toNat ≠ node.toNat := fun h => heq (UInt64.toNat_inj.mp h)
    by_cases hbelow : target < node
    · -- the node at `left` is below the one in the middle, so there is one before the middle
      rw [if_pos hbelow]
      have hlow := UInt64.lt_iff_toNat_lt.mp hbelow
      have hleft := position_lt hasc hx hnode (by omega)
      obtain ⟨before, hbefore⟩ : ∃ before, nodes[m - 1]? = some before :=
        ⟨_, List.getElem?_eq_getElem (by omega)⟩
      rw [if_pos (by omega : 0 < m), hbefore, Option.map_some, Option.bind_some]
      by_cases hbetween : before < target
      · have hmid : m - 1 + 1 = m := by omega
        rw [if_pos (by simpa using hbetween)]
        have hnear := getNearest_spec hasc hbefore (hmid ▸ hnode) hbetween hbelow
        rwa [hmid] at hnear
      · rw [if_neg (by simpa using hbetween)]
        exact ih hx hbefore ha (UInt64.le_iff_toNat_le.mp (UInt64.not_lt.mp hbetween)) hleft
          (by omega)
    · rw [if_neg hbelow]
      have hhigh := UInt64.le_iff_toNat_le.mp (UInt64.not_lt.mp hbelow)
      have hlast := position_lt hasc hnode hy (by omega)
      obtain ⟨after, hafter⟩ : ∃ after, nodes[m + 1]? = some after :=
        ⟨_, List.getElem?_eq_getElem (by omega)⟩
      rw [if_pos (by omega : m < nodes.length - 1), hafter, Option.map_some, Option.bind_some]
      by_cases hbetween : target < after
      · rw [if_pos (by simpa using hbetween)]
        exact getNearest_spec hasc hnode hafter (UInt64.lt_iff_toNat_lt.mpr (by omega)) hbetween
      · rw [if_neg (by simpa using hbetween)]
        exact ih hafter hy (UInt64.le_iff_toNat_le.mp (UInt64.not_lt.mp hbetween)) hb
          (by omega) (by omega)

/-- **The search ends** with a nearest position, without a read outside the list. -/
theorem getNearestSearchNode_spec (hne : nodes ≠ []) :
    ∃ k, getNearestSearchNode nodes target = some k ∧ IsNearest nodes target k := by
  have hpos := List.length_pos_iff.mpr hne
  obtain ⟨first, hfirst⟩ : ∃ first, nodes[0]? = some first := ⟨_, List.getElem?_eq_getElem hpos⟩
  obtain ⟨last, hlast⟩ : ∃ last, nodes[nodes.length - 1]? = some last :=
    ⟨_, List.getElem?_eq_getElem (by omega)⟩
  simp only [getNearestSearchNode, if_neg hpos.ne', hfirst, hlast, Option.bind_eq_bind,
    Option.bind_some]
  by_cases hbefore : target ≤ first
  · rw [if_pos hbefore]
    exact ⟨0, rfl, isNearest_first hasc hfirst (UInt64.le_iff_toNat_le.mp hbefore)⟩
  rw [if_neg hbefore]
  by_cases hbehind : last ≤ target
  · rw [if_pos hbehind]
    exact ⟨_, rfl, isNearest_last hasc hlast (UInt64.le_iff_toNat_le.mp hbehind)⟩
  rw [if_neg hbehind]
  rw [UInt64.le_iff_toNat_le, not_le] at hbefore hbehind
  exact searchLoop_spec hasc hfirst hlast hbefore.le hbehind.le hpos le_rfl

theorem position_eq (hx : nodes[x]? = some a) (hy : nodes[y]? = some a) : x = y := by
  rcases lt_trichotomy x y with h | h | h
  · exact absurd (lt_of_positions hasc hx hy h) (UInt64.lt_irrefl a)
  · exact h
  · exact absurd (lt_of_positions hasc hy hx h) (UInt64.lt_irrefl a)

theorem getNearestSearchNode_self (hk : nodes[k]? = some target) :
    getNearestSearchNode nodes target = some k := by
  have hne : nodes ≠ [] := by
    rintro rfl
    cases hk
  obtain ⟨j, hj, node, hnode, hle⟩ := @getNearestSearchNode_spec nodes target hasc hne
  have hzero := hle target (List.mem_of_getElem? hk)
  have hsame : node = target := by
    unfold distance Nat.dist at hzero
    apply UInt64.toNat_inj.mp
    omega
  rw [hsame] at hnode
  rw [hj, position_eq hasc hnode hk]

end Ascending

/-! ## Steps -/

/-- The members that the search uses: the results by their nodes, the position of the iterator, the
node that is selected, and what has been emitted. -/
structure SearchView where
  nodes : List UInt64
  searchIt : ℕ
  current : Option UInt64
  updates : List (ℕ × ℕ) := []

namespace SearchView

variable (v : SearchView)

/-- `++m_search_index_it`, in a ring. -/
def advance (it : ℕ) : ℕ := if it + 1 ≠ v.nodes.length then it + 1 else 0

/-- `--m_search_index_it`, in a ring. -/
def retreat (it : ℕ) : ℕ := if it ≠ 0 then it - 1 else v.nodes.length - 1

/-- The iterator at a position, with its node selected. -/
def select (it : ℕ) : Option SearchView :=
  (v.nodes[it]?).map fun node =>
    { v with
      searchIt := it, current := some node
      updates := v.updates ++ [(it, v.nodes.length)] }

/-- A step, with `move` in one of the directions. -/
def stepInSearch (move : ℕ → ℕ) : Option SearchView :=
  if v.nodes.isEmpty then some v
  else
    match v.current with
    | none => some v
    | some sourceNode => do
      if (← v.nodes[v.searchIt]?) ≠ sourceNode then
        let nearest ← getNearestSearchNode v.nodes sourceNode
        if (← v.nodes[nearest]?) = sourceNode then v.select (move nearest)
        else v.select nearest
      else v.select (move v.searchIt)

def nextNodeInSearch : Option SearchView := v.stepInSearch v.advance

def prevNodeInSearch : Option SearchView := v.stepInSearch v.retreat

/-- `searchNodeByText`, where the model matches the text at `results`. -/
def searchNodeByText (results : List UInt64) : Option SearchView :=
  let v := { v with nodes := results, searchIt := 0 }
  match results with
  | [] => some { v with updates := v.updates ++ [(0, 0)] }
  | first :: _ =>
    match v.current with
    | none => v.select 0
    | some sourceNode =>
      if sourceNode ≠ first then (getNearestSearchNode results sourceNode).bind v.select
      else v.select 0

/-- `m` steps. -/
def times (step : SearchView → Option SearchView) : ℕ → SearchView → Option SearchView
  | 0, v => some v
  | m + 1, v => (step v).bind (times step m)

/-- The result at position `k` is selected, and the iterator is in the list. -/
structure At (nodes : List UInt64) (k : ℕ) (v : SearchView) : Prop where
  nodes_eq : v.nodes = nodes
  lt : k < nodes.length
  iterator : v.searchIt < nodes.length
  current : v.current = nodes[k]?

section Steps

variable {v} {nodes : List UInt64} {k m : ℕ}

theorem at_select (hnodes : v.nodes = nodes) (hk : k < nodes.length) :
    ∃ u, v.select k = some u ∧ At nodes k u := by
  obtain ⟨node, hnode⟩ : ∃ node, v.nodes[k]? = some node :=
    ⟨_, List.getElem?_eq_getElem (hnodes ▸ hk)⟩
  rw [select, hnode, Option.map_some]
  exact ⟨_, rfl, hnodes, hk, hk, hnodes ▸ hnode.symm⟩

theorem At.advance_eq (h : At nodes k v) : v.advance k = (k + 1) % nodes.length := by
  have hlt := h.lt
  rw [advance, h.nodes_eq]
  split_ifs with hend
  · rw [Nat.mod_eq_of_lt (by omega)]
  · rw [show k + 1 = nodes.length by omega, Nat.mod_self]

theorem At.retreat_succ (h : At nodes k v) : (v.retreat k + 1) % nodes.length = k := by
  have hlt := h.lt
  rw [retreat, h.nodes_eq]
  split_ifs with hstart
  · rw [show k - 1 + 1 = k by omega, Nat.mod_eq_of_lt hlt]
  · rw [show nodes.length - 1 + 1 = nodes.length by omega, Nat.mod_self]
    omega

variable (hasc : nodes.Pairwise (· < ·))

include hasc

/-- **One step**, from wherever the iterator is. -/
theorem At.stepInSearch {move : ℕ → ℕ} (h : At nodes k v) (hmove : move k < nodes.length) :
    ∃ u, v.stepInSearch move = some u ∧ At nodes (move k) u := by
  obtain ⟨node, hnode⟩ : ∃ node, nodes[k]? = some node := ⟨_, List.getElem?_eq_getElem h.lt⟩
  obtain ⟨other, hother⟩ : ∃ other, nodes[v.searchIt]? = some other :=
    ⟨_, List.getElem?_eq_getElem h.iterator⟩
  have hne : nodes.isEmpty = false :=
    List.isEmpty_eq_false_iff.mpr (List.ne_nil_of_length_pos (Nat.zero_lt_of_lt h.lt))
  have hcurrent := h.current.trans hnode
  simp only [SearchView.stepInSearch, hne, Bool.false_eq_true, if_false, hcurrent, h.nodes_eq,
    hother, Option.bind_eq_bind, Option.bind_some]
  by_cases hsame : other = node
  · obtain rfl : v.searchIt = k := position_eq hasc (hsame ▸ hother) hnode
    rw [if_neg (not_not.mpr hsame)]
    exact at_select h.nodes_eq hmove
  · rw [if_pos hsame, getNearestSearchNode_self hasc hnode, Option.bind_some, hnode,
      Option.bind_some, if_pos rfl]
    exact at_select h.nodes_eq hmove

theorem At.nextNodeInSearch (h : At nodes k v) :
    ∃ u, v.nextNodeInSearch = some u ∧ At nodes ((k + 1) % nodes.length) u := by
  have hlt := Nat.mod_lt (k + 1) (Nat.zero_lt_of_lt h.lt)
  rw [← h.advance_eq] at hlt ⊢
  exact h.stepInSearch hasc hlt

theorem At.prevNodeInSearch (h : At nodes k v) :
    ∃ u p, v.prevNodeInSearch = some u ∧ At nodes p u ∧ (p + 1) % nodes.length = k := by
  have hlt : v.retreat k < nodes.length := by
    have hk := h.lt
    rw [retreat, h.nodes_eq]
    split_ifs <;> omega
  obtain ⟨u, hu, hat⟩ := h.stepInSearch hasc hlt
  exact ⟨u, v.retreat k, hu, hat, h.retreat_succ⟩

/-- **Steps forward** go round the results. -/
theorem At.times_next (h : At nodes k v) :
    ∃ u, times SearchView.nextNodeInSearch m v = some u ∧ At nodes ((k + m) % nodes.length) u := by
  induction m generalizing k v with
  | zero => exact ⟨v, rfl, by rwa [Nat.add_zero, Nat.mod_eq_of_lt h.lt]⟩
  | succ m ih =>
    obtain ⟨w, hw, hat⟩ := h.nextNodeInSearch hasc
    obtain ⟨u, hu, hend⟩ := ih hat
    refine ⟨u, by rw [times, hw, Option.bind_some, hu], ?_⟩
    rwa [Nat.mod_add_mod, show k + 1 + m = k + (m + 1) by omega] at hend

/-- **Steps back** go round them the other way. -/
theorem At.times_prev (h : At nodes k v) :
    ∃ u p, times SearchView.prevNodeInSearch m v = some u ∧ At nodes p u ∧
      (p + m) % nodes.length = k := by
  induction m generalizing k v with
  | zero => exact ⟨v, k, rfl, h, Nat.mod_eq_of_lt h.lt⟩
  | succ m ih =>
    obtain ⟨w, q, hw, hat, hq⟩ := h.prevNodeInSearch hasc
    obtain ⟨u, p, hu, hend, hp⟩ := ih hat
    refine ⟨u, p, by rw [times, hw, Option.bind_some, hu], hend, ?_⟩
    rw [← Nat.add_assoc, ← Nat.mod_add_mod, hp, hq]

theorem searchNodeByText_at (v : SearchView) (hne : nodes ≠ []) :
    ∃ u k, v.searchNodeByText nodes = some u ∧ At nodes k u := by
  obtain ⟨old, it, current, updates⟩ := v
  obtain ⟨first, rest, rfl⟩ := List.exists_cons_of_ne_nil hne
  have hselect : ∀ k, k < (first :: rest).length →
      ∃ u, (⟨first :: rest, 0, current, updates⟩ : SearchView).select k = some u ∧
        At (first :: rest) k u := fun k hk => at_select rfl hk
  obtain ⟨u, hu, hat⟩ := hselect 0 (Nat.succ_pos _)
  cases current with
  | none => exact ⟨u, 0, hu, hat⟩
  | some sourceNode =>
    by_cases hsame : sourceNode = first
    · exact ⟨u, 0, by rw [searchNodeByText]; simpa [hsame] using hu, hat⟩
    · obtain ⟨k, hk, node, hnode, -⟩ := @getNearestSearchNode_spec _ sourceNode hasc hne
      obtain ⟨w, hw, hatk⟩ := hselect k (List.getElem?_eq_some_iff.mp hnode).1
      refine ⟨w, k, ?_, hatk⟩
      rw [searchNodeByText]
      dsimp only
      rw [if_pos hsame, hk, Option.bind_some, hw]

end Steps

/-- **The search finds a nearest result for every target**, and the steps from a result on go round
the results in their order. -/
theorem steps_cyclic (nodes : List UInt64) (hasc : nodes.Pairwise (· < ·)) (hne : nodes ≠ []) :
    (∀ target, ∃ k, getNearestSearchNode nodes target = some k ∧ IsNearest nodes target k) ∧
    ∀ k v, At nodes k v → ∀ m,
      (∃ u, times nextNodeInSearch m v = some u ∧ At nodes ((k + m) % nodes.length) u) ∧
      ∃ u p, times prevNodeInSearch m v = some u ∧ At nodes p u ∧ (p + m) % nodes.length = k :=
  ⟨fun _ => getNearestSearchNode_spec hasc hne,
    fun _ _ h _ => ⟨h.times_next hasc, h.times_prev hasc⟩⟩

/-- Three results, of which the second one is selected while the iterator is at the first. -/
theorem steps_cyclic_three :
    (∃ k, getNearestSearchNode [3, 8, 20] 13 = some k ∧ IsNearest [3, 8, 20] 13 k) ∧
    ∃ u, times nextNodeInSearch 2 ⟨[3, 8, 20], 0, some 8, []⟩ = some u ∧ At [3, 8, 20] 0 u := by
  have hasc : ([3, 8, 20] : List UInt64).Pairwise (· < ·) := by decide
  have hall := steps_cyclic [3, 8, 20] hasc (List.cons_ne_nil _ _)
  exact ⟨hall.1 13, (hall.2 1 ⟨[3, 8, 20], 0, some 8, []⟩ ⟨rfl, by decide, by decide, rfl⟩ 2).1⟩

end SearchView

end Dive.DiveTreeView
