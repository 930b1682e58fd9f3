import Mathlib.Data.List.Nodup
import Mathlib.Data.List.Perm.Basic

/-!
# Tours of a tree

The tree is given by what is below each of its labels; a tour enters and leaves every label.

* `Tour below roots ev`: the events of the recursion over the trees of `roots`.
* `entered`: the preorder; `left_perm_entered`.
* **`Tour.split`**: the events around one label; `Tour.induct`: an induction from the roots down.
* `tourM`: a recursion with a state, in fuel; **`Tour.exists_tourM`**: it goes over the events.
-/

namespace Tours

variable {α σ : Type}

inductive TourEvent (α : Type)
  | enter (a : α)
  | leave (a : α)

namespace TourEvent

def entered : TourEvent α → Option α
  | enter a => some a
  | leave _ => none

def left : TourEvent α → Option α
  | enter _ => none
  | leave a => some a

end TourEvent

def entered (ev : List (TourEvent α)) : List α := ev.filterMap TourEvent.entered

def left (ev : List (TourEvent α)) : List α := ev.filterMap TourEvent.left

@[simp] theorem entered_append (ev ev' : List (TourEvent α)) :
    entered (ev ++ ev') = entered ev ++ entered ev' := List.filterMap_append

@[simp] theorem left_append (ev ev' : List (TourEvent α)) : left (ev ++ ev') = left ev ++ left ev' :=
  List.filterMap_append

@[simp] theorem entered_nil : entered ([] : List (TourEvent α)) = [] := rfl

@[simp] theorem left_nil : left ([] : List (TourEvent α)) = [] := rfl

@[simp] theorem entered_enter (a : α) (ev : List (TourEvent α)) :
    entered (.enter a :: ev) = a :: entered ev := rfl

@[simp] theorem entered_leave (a : α) (ev : List (TourEvent α)) :
    entered (.leave a :: ev) = entered ev := rfl

@[simp] theorem left_enter (a : α) (ev : List (TourEvent α)) : left (.enter a :: ev) = left ev := rfl

@[simp] theorem left_leave (a : α) (ev : List (TourEvent α)) :
    left (.leave a :: ev) = a :: left ev := rfl

theorem exists_enter {ev : List (TourEvent α)} {as bs : List α} {a : α}
    (h : entered ev = as ++ a :: bs) :
    ∃ before after, ev = before ++ .enter a :: after ∧ entered before = as ∧
      entered after = bs := by
  induction ev generalizing as with
  | nil => simp at h
  | cons e ev ih =>
    cases e with
    | leave b =>
      obtain ⟨before, after, rfl, rfl, rfl⟩ := ih h
      exact ⟨.leave b :: before, after, rfl, rfl, rfl⟩
    | enter b =>
      rw [entered_enter] at h
      cases as with
      | nil =>
        obtain ⟨rfl, rfl⟩ := List.cons.inj h
        exact ⟨[], ev, rfl, rfl, rfl⟩
      | cons c as =>
        obtain ⟨rfl, hrest⟩ := List.cons.inj h
        obtain ⟨before, after, rfl, rfl, rfl⟩ := ih hrest
        exact ⟨.enter b :: before, after, rfl, rfl, rfl⟩

/-- **The events of the recursion over the trees of some labels.** -/
inductive Tour (below : α → Option (List α)) : List α → List (TourEvent α) → Prop
  | nil : Tour below [] []
  | cons {a : α} {as bs : List α} {ev ev' : List (TourEvent α)} (hbelow : below a = some bs)
      (hsub : Tour below bs ev) (hrest : Tour below as ev') :
      Tour below (a :: as) (.enter a :: (ev ++ .leave a :: ev'))

variable {below : α → Option (List α)} {roots : List α} {ev : List (TourEvent α)} {a : α}

theorem Tour.left_perm_entered (h : Tour below roots ev) : (left ev).Perm (entered ev) := by
  induction h with
  | nil => exact .nil
  | @cons a as bs ev ev' _ _ _ ih ih' =>
    simp only [left_enter, left_append, left_leave, entered_enter, entered_append, entered_leave]
    exact List.perm_middle.trans (.cons a (ih.append ih'))

theorem Tour.mem_of_root (h : Tour below roots ev) (ha : a ∈ roots) : a ∈ entered ev := by
  induction h with
  | nil => cases ha
  | cons _ _ _ _ ih' =>
    rw [entered_enter, entered_append, entered_leave]
    rcases List.mem_cons.mp ha with rfl | ha
    · exact List.mem_cons_self
    · exact List.mem_cons_of_mem _ (List.mem_append_right _ (ih' ha))

/-- **The events around one label.** -/
theorem Tour.split (h : Tour below roots ev) (ha : a ∈ entered ev) :
    ∃ bs before inside after, below a = some bs ∧ Tour below bs inside ∧
      ev = before ++ .enter a :: (inside ++ .leave a :: after) := by
  induction h with
  | nil => cases ha
  | @cons b as bs ev ev' hbelow hsub _ ih ih' =>
    rw [entered_enter, entered_append, entered_leave, List.mem_cons, List.mem_append] at ha
    rcases ha with rfl | ha | ha
    · exact ⟨bs, [], ev, ev', hbelow, hsub, rfl⟩
    · obtain ⟨cs, before, inside, after, hcs, htour, rfl⟩ := ih ha
      exact ⟨cs, .enter b :: before, inside, after ++ .leave b :: ev', hcs, htour, by simp⟩
    · obtain ⟨cs, before, inside, after, hcs, htour, rfl⟩ := ih' ha
      exact ⟨cs, .enter b :: (ev ++ .leave b :: before), inside, after, hcs, htour, by simp⟩

theorem Tour.below_of_mem (h : Tour below roots ev) (ha : a ∈ entered ev) :
    ∃ bs, below a = some bs ∧ ∀ b ∈ bs, b ∈ entered ev := by
  obtain ⟨bs, before, inside, after, hbs, htour, rfl⟩ := h.split ha
  refine ⟨bs, hbs, fun b hb => ?_⟩
  have hmem := htour.mem_of_root hb
  simp [hmem]

/-- **From the roots down.** -/
theorem Tour.induct {P : α → Prop} (h : Tour below roots ev) (hroots : ∀ a ∈ roots, P a)
    (hbelow : ∀ a bs, P a → below a = some bs → ∀ b ∈ bs, P b) : ∀ a ∈ entered ev, P a := by
  induction h with
  | nil => exact fun _ ha => (List.not_mem_nil ha).elim
  | @cons a as bs ev ev' hbs _ _ ih ih' =>
    have ha : P a := hroots a List.mem_cons_self
    intro b hb
    rw [entered_enter, entered_append, entered_leave, List.mem_cons, List.mem_append] at hb
    rcases hb with rfl | hb | hb
    · exact ha
    · exact ih (hbelow a bs ha hbs) b hb
    · exact ih' (fun c hc => hroots c (List.mem_cons_of_mem a hc)) b hb

/-! ## Recursions -/

section Recursion

variable (below) (enterM leaveM : α → σ → Option σ)

/-- The recursion over the tree of a label, with a state; `fuel` bounds its depth. -/
def tourM : ℕ → α → σ → Option σ
  | 0, _, _ => none
  | fuel + 1, a, s => do
    let s ← enterM a s
    let bs ← below a
    let s ← bs.foldlM (fun s b => tourM fuel b s) s
    leaveM a s

def eventM (s : σ) : TourEvent α → Option σ
  | .enter a => enterM a s
  | .leave a => leaveM a s

/-- **The recursion goes over the events.** -/
theorem Tour.exists_tourM (h : Tour below roots ev) : ∃ fuel, ∀ more s,
    roots.foldlM (fun s a => tourM below enterM leaveM (fuel + more) a s) s =
      ev.foldlM (eventM enterM leaveM) s := by
  induction h with
  | nil => exact ⟨0, fun _ _ => rfl⟩
  | @cons a as bs ev ev' hbelow _ _ ih ih' =>
    obtain ⟨fuel, hfuel⟩ := ih
    obtain ⟨fuel', hfuel'⟩ := ih'
    refine ⟨fuel + fuel' + 1, fun more s => ?_⟩
    have hfirst : fuel + fuel' + 1 + more = fuel + (fuel' + more) + 1 := by omega
    have hothers : fuel + fuel' + 1 + more = fuel' + (fuel + 1 + more) := by omega
    have hrest (s : σ) : as.foldlM (fun s a => tourM below enterM leaveM
        (fuel + fuel' + 1 + more) a s) s = ev'.foldlM (eventM enterM leaveM) s := by
      rw [hothers]
      exact hfuel' (fuel + 1 + more) s
    simp only [List.foldlM_cons, List.foldlM_append, hrest]
    rw [hfirst, tourM]
    simp only [hbelow, Option.bind_eq_bind, Option.bind_some, hfuel, Option.bind_assoc, eventM]

end Recursion

end Tours
