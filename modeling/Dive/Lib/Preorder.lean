import Mathlib.Logic.Relation
import Mathlib.Order.WellFounded

/-!
# The preorder of a forest

A forest is given by the list of the children of each node.

* `IsForest`: a node has one place at most, and no node is below itself.
* `SameTree`: two trees with the same labels and the same shape.
* `Preorder`: the nodes of a list of trees, parents first; **`Preorder.mem_iff`**,
  **`Preorder.nodup`**, `exists_preorder`.
* `Climbs`, `Next`: the first child of a node or, where it has none, the sibling after it or after
  the closest node above it that has one.
* **`follows_of_preorder`**: from a root, `Next` goes through the preorder of the tree and ends.
-/

namespace Forest

open Relation

variable {α : Type}

/-! ## Lists of successors -/

/-- Every element of the list leads to the element after it, and the last one to `r`. -/
def Follows (next : α → Option α → Prop) : List α → Option α → Prop
  | [], _ => True
  | n :: l, r => next n (l.head?.or r) ∧ Follows next l r

theorem follows_append {next : α → Option α → Prop} (l₁ l₂ : List α) (r : Option α) :
    Follows next (l₁ ++ l₂) r ↔ Follows next l₁ (l₂.head?.or r) ∧ Follows next l₂ r := by
  induction l₁ with
  | nil => simp [Follows]
  | cons n l₁ ih => simp [Follows, ih, List.head?_append, Option.or_assoc, and_assoc]

theorem Follows.mono {next next' : α → Option α → Prop} {l : List α} {r : Option α}
    (h : Follows next l r) (himp : ∀ n ∈ l, ∀ s, next n s → next' n s) : Follows next' l r := by
  induction l with
  | nil => trivial
  | cons n l ih =>
    exact ⟨himp n (by simp) _ h.1, ih h.2 fun m hm => himp m (by simp [hm])⟩

/-! ## Forests -/

variable (children : α → List α)

/-- `c` is a child of `p`. -/
def ChildOf (c p : α) : Prop := c ∈ children p

/-- The trees below `n` and `n'` are isomorphic: corresponding nodes have the same label, and
corresponding children in the same order. -/
def SameTree {α β γ : Type} (label : α → γ) (children : α → List α) (label' : β → γ)
    (children' : β → List β) (n : α) (n' : β) : Prop :=
  ∃ φ : α → β, Function.Injective φ ∧ φ n = n' ∧ ∀ i, ReflTransGen (ChildOf children) i n →
    label' (φ i) = label i ∧ children' (φ i) = (children i).map φ

/-- No node has two places below its parents, and none is below itself. -/
structure IsForest : Prop where
  place : ∀ p q (i j : ℕ) c, (children p)[i]? = some c → (children q)[j]? = some c → p = q ∧ i = j
  wf : WellFounded (ChildOf children)

variable {children}

theorem IsForest.rightUnique (hF : IsForest children) : Relator.RightUnique (ChildOf children) := by
  intro c p q hp hq
  obtain ⟨i, hi⟩ := List.mem_iff_getElem?.mp hp
  obtain ⟨j, hj⟩ := List.mem_iff_getElem?.mp hq
  exact (hF.place p q i j c hi hj).1

theorem IsForest.irrefl (hF : IsForest children) (n : α) : ¬TransGen (ChildOf children) n n :=
  hF.wf.transGen.irrefl.irrefl n

theorem IsForest.above_parent (hF : IsForest children) {c p n : α} (hc : ChildOf children c p)
    (hn : ReflTransGen (ChildOf children) c n) :
    n = c ∨ ReflTransGen (ChildOf children) p n := by
  rcases ReflTransGen.cases_head hn with rfl | ⟨q, hq, hqn⟩
  · exact .inl rfl
  · rw [← hF.rightUnique hc hq] at hqn
    exact .inr hqn

theorem IsForest.siblings_apart (hF : IsForest children) {a b p m : α}
    (ha : ChildOf children a p) (hb : ChildOf children b p) (hne : a ≠ b)
    (hma : ReflTransGen (ChildOf children) m a) (hmb : ReflTransGen (ChildOf children) m b) :
    False := by
  rcases ReflTransGen.total_of_right_unique hF.rightUnique hma hmb with h | h
  · rcases hF.above_parent ha h with rfl | h
    · exact hne rfl
    · exact hF.irrefl p (TransGen.tail' h hb)
  · rcases hF.above_parent hb h with rfl | h
    · exact hne rfl
    · exact hF.irrefl p (TransGen.tail' h ha)

/-! ## The preorder -/

variable (children) in
/-- The nodes of the trees whose roots are the first list, every node before its children. -/
inductive Preorder : List α → List α → Prop
  | nil : Preorder [] []
  | cons {n : α} {ns l₁ l₂ : List α} (below : Preorder (children n) l₁) (rest : Preorder ns l₂) :
      Preorder (n :: ns) (n :: (l₁ ++ l₂))

theorem Preorder.head? {ns l : List α} (h : Preorder children ns l) : l.head? = ns.head? := by
  cases h <;> rfl

/-- **The preorder has exactly the nodes below its roots.** -/
theorem Preorder.mem_iff {ns l : List α} (h : Preorder children ns l) (m : α) :
    m ∈ l ↔ ∃ n ∈ ns, ReflTransGen (ChildOf children) m n := by
  induction h with
  | nil => simp
  | @cons n ns l₁ l₂ _ _ ih₁ ih₂ =>
    have hn : ReflTransGen (ChildOf children) m n ↔
        m = n ∨ ∃ c ∈ children n, ReflTransGen (ChildOf children) m c := by
      rw [ReflTransGen.cases_tail_iff]
      constructor
      · rintro (rfl | ⟨c, hmc, hc⟩)
        · exact .inl rfl
        · exact .inr ⟨c, hc, hmc⟩
      · rintro (rfl | ⟨c, hc, hmc⟩)
        · exact .inl rfl
        · exact .inr ⟨c, hmc, hc⟩
    simp [ih₁, ih₂, hn, or_assoc]

/-- **The preorder of siblings has no node twice.** -/
theorem Preorder.nodup_drop (hF : IsForest children) {ns l : List α}
    (h : Preorder children ns l) :
    ∀ p i, ns = (children p).drop i → l.Nodup := by
  induction h with
  | nil => simp
  | @cons n ns l₁ l₂ h₁ h₂ ih₁ ih₂ =>
    intro p i hns
    have hn : (children p)[i]? = some n := by
      rw [← List.head?_drop, ← hns, List.head?_cons]
    have hrest : ns = (children p).drop (i + 1) := by
      rw [← List.tail_drop, ← hns, List.tail_cons]
    have hchild : ChildOf children n p := List.mem_of_getElem? hn
    -- A node of `ns` is another child of `p`.
    have hother : ∀ s ∈ ns, ChildOf children s p ∧ n ≠ s := by
      intro s hs
      rw [hrest, List.mem_iff_getElem?] at hs
      obtain ⟨j, hj⟩ := hs
      rw [List.getElem?_drop] at hj
      refine ⟨List.mem_of_getElem? hj, ?_⟩
      rintro rfl
      have := (hF.place p p i (i + 1 + j) n hn hj).2
      omega
    have happart : ∀ m ∈ l₂, ¬ReflTransGen (ChildOf children) m n := by
      intro m hm hmn
      obtain ⟨s, hs, hms⟩ := (h₂.mem_iff m).mp hm
      exact hF.siblings_apart hchild (hother s hs).1 (hother s hs).2 hmn hms
    have hbelow : ∀ m ∈ l₁, TransGen (ChildOf children) m n := by
      intro m hm
      obtain ⟨c, hc, hmc⟩ := (h₁.mem_iff m).mp hm
      exact TransGen.tail' hmc hc
    rw [List.nodup_cons, List.mem_append, List.nodup_append]
    refine ⟨?_, ih₁ n 0 (by simp), ih₂ p (i + 1) hrest, ?_⟩
    · rintro (hm | hm)
      · exact hF.irrefl n (hbelow n hm)
      · exact happart n hm .refl
    · rintro m hm₁ _ hm₂ rfl
      exact happart m hm₂ (hbelow m hm₁).to_reflTransGen

/-- **The preorder of a tree has no node twice.** -/
theorem Preorder.nodup (hF : IsForest children) {root : α} {l : List α}
    (h : Preorder children [root] l) : l.Nodup := by
  cases h with
  | @cons _ _ l₁ _ h₁ h₂ =>
    cases h₂
    rw [List.append_nil, List.nodup_cons]
    refine ⟨?_, h₁.nodup_drop hF root 0 (by simp)⟩
    intro hm
    obtain ⟨c, hc, hmc⟩ := (h₁.mem_iff root).mp hm
    exact hF.irrefl root (TransGen.tail' hmc hc)

theorem exists_preorder (hF : IsForest children) (ns : List α) :
    ∃ l, Preorder children ns l := by
  have hone : ∀ n, ∃ l, Preorder children (children n) l := by
    intro n
    induction n using hF.wf.induction with
    | _ n ih =>
      suffices ∀ cs, (∀ c ∈ cs, c ∈ children n) → ∃ l, Preorder children cs l from
        this _ fun c hc => hc
      intro cs
      induction cs with
      | nil => exact fun _ => ⟨_, .nil⟩
      | cons c cs ihcs =>
        intro hsub
        obtain ⟨l₁, h₁⟩ := ih c (hsub c (by simp))
        obtain ⟨l₂, h₂⟩ := ihcs fun d hd => hsub d (by simp [hd])
        exact ⟨_, .cons h₁ h₂⟩
  induction ns with
  | nil => exact ⟨_, .nil⟩
  | cons n ns ih =>
    obtain ⟨l₁, h₁⟩ := hone n
    obtain ⟨l₂, h₂⟩ := ih
    exact ⟨_, .cons h₁ h₂⟩

/-! ## The next node -/

variable (children) (root : α)

/-- The node after all nodes below a node: the next sibling of the node or of the closest node above
it that has one, and nothing after the last one below the root. -/
inductive Climbs : α → Option α → Prop
  | root : Climbs root none
  | sibling {n p s : α} {i : ℕ} (ne : n ≠ root) (place : (children p)[i]? = some n)
      (next : (children p)[i + 1]? = some s) : Climbs n (some s)
  | up {n p : α} {i : ℕ} {r : Option α} (ne : n ≠ root) (place : (children p)[i]? = some n)
      (last : (children p)[i + 1]? = none) (above : Climbs p r) : Climbs n r

/-- The first child of a node or the node after all nodes below it. -/
inductive Next : α → Option α → Prop
  | child {n c : α} (first : (children n)[0]? = some c) : Next n (some c)
  | climb {n : α} {r : Option α} (leaf : children n = []) (after : Climbs children root n r) :
      Next n r

variable {children root}

theorem climbs_of_drop {n p : α} {ns : List α} {i : ℕ} {r : Option α} (ne : n ≠ root)
    (hn : (children p)[i]? = some n) (hns : ns = (children p).drop (i + 1))
    (hp : Climbs children root p r) : Climbs children root n (ns.head?.or r) := by
  rw [hns, List.head?_drop]
  cases hnext : (children p)[i + 1]? with
  | none => exact .up ne hn hnext hp
  | some s => exact .sibling ne hn hnext

theorem next_of_preorder {n : α} {l : List α} {r : Option α} (h : Preorder children (children n) l)
    (hn : Climbs children root n r) : Next children root n (l.head?.or r) := by
  rw [h.head?, List.head?_eq_getElem?]
  cases hfirst : (children n)[0]? with
  | none => exact .climb (by simpa using hfirst) hn
  | some c => exact .child hfirst

theorem follows_of_drop (hF : IsForest children) {ns l : List α} (h : Preorder children ns l) :
    ∀ p i r, ns = (children p).drop i → ReflTransGen (ChildOf children) p root →
      Climbs children root p r → Follows (Next children root) l r := by
  induction h with
  | nil => exact fun _ _ _ _ _ _ => trivial
  | @cons n ns l₁ l₂ h₁ h₂ ih₁ ih₂ =>
    intro p i r hns hroot hp
    have hn : (children p)[i]? = some n := by
      rw [← List.head?_drop, ← hns, List.head?_cons]
    have hrest : ns = (children p).drop (i + 1) := by
      rw [← List.tail_drop, ← hns, List.tail_cons]
    have hchild : ChildOf children n p := List.mem_of_getElem? hn
    have hne : n ≠ root := by
      rintro rfl
      exact hF.irrefl n (TransGen.head' hchild hroot)
    have hclimb : Climbs children root n (l₂.head?.or r) := by
      rw [h₂.head?]
      exact climbs_of_drop hne hn hrest hp
    refine ⟨?_, (follows_append _ _ _).mpr ⟨?_, ih₂ p (i + 1) r hrest hroot hp⟩⟩
    · rw [List.head?_append, Option.or_assoc]
      exact next_of_preorder h₁ hclimb
    · exact ih₁ n 0 _ (by simp) (.head hchild hroot) hclimb

/-- **From a root, `Next` goes through the preorder of the tree and ends.** -/
theorem follows_of_preorder (hF : IsForest children) {l : List α}
    (h : Preorder children [root] l) : Follows (Next children root) l none := by
  cases h with
  | @cons _ _ l₁ _ h₁ h₂ =>
    cases h₂
    rw [List.append_nil]
    exact ⟨next_of_preorder h₁ .root, follows_of_drop hF h₁ root 0 none (by simp) .refl .root⟩

end Forest
