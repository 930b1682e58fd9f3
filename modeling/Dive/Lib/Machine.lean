import Mathlib.Data.Fintype.EquivFin
import Mathlib.Logic.Relation

/-!
# Deterministic machines that stop with a result

* `Machine.Reaches`: a run; `Reaches.invariant` and `Reaches.backward` carry a property along it in
  either direction.
* `Machine.Halts`: the run from a state is finite; `not_halts_of_trap` refutes it.
* `Machine.runFor`: the run, for a bounded number of steps.
* `acc_of_acyclic`: a point of a finite graph that reaches no cycle is accessible.
-/

namespace Machine

variable {S R : Type*}

theorem bind_eq_ok {α β : Type*} {x : Except R α} {f : α → Except R β} {b : β} :
    x.bind f = .ok b ↔ ∃ a, x = .ok a ∧ f a = .ok b := by
  cases x with
  | error e => simp [Except.bind]
  | ok a => simp [Except.bind]

theorem map_eq_ok {α β : Type*} {x : Except R α} {f : α → β} {b : β} :
    x.map f = .ok b ↔ ∃ a, x = .ok a ∧ f a = b := by
  cases x with
  | error e => simp [Except.map]
  | ok a => simp [Except.map]

/-- Some number of steps leads from `s` to `t`. -/
def Reaches (step : S → Except R S) (s t : S) : Prop :=
  Relation.ReflTransGen (fun u v => step u = .ok v) s t

/-- The run from `s` stops with result `r`. -/
def StopsWith (step : S → Except R S) (s : S) (r : R) : Prop :=
  ∃ t, Reaches step s t ∧ step t = .error r

/-- The run from `s` is finite. -/
inductive Halts (step : S → Except R S) : S → Prop
  | stop {s : S} {r : R} (h : step s = .error r) : Halts step s
  | next {s t : S} (h : step s = .ok t) (ht : Halts step t) : Halts step s

/-- At most `n` steps from `s`. -/
def runFor (step : S → Except R S) : ℕ → S → Except R S
  | 0, s => .ok s
  | n + 1, s => (step s).bind (runFor step n)

variable {step : S → Except R S} {s t u : S} {r : R}

namespace Reaches

theorem refl (s : S) : Reaches step s s := Relation.ReflTransGen.refl

theorem tail (h : Reaches step s t) (hu : step t = .ok u) : Reaches step s u :=
  Relation.ReflTransGen.tail h hu

theorem head (h : step s = .ok t) (hu : Reaches step t u) : Reaches step s u :=
  Relation.ReflTransGen.head h hu

theorem trans (h : Reaches step s t) (h' : Reaches step t u) : Reaches step s u :=
  Relation.ReflTransGen.trans h h'

theorem next (h : step s = .ok t) (hu : Reaches step s u) : u = s ∨ Reaches step t u := by
  rcases Relation.ReflTransGen.cases_head hu with rfl | ⟨v, hv, hvu⟩
  · exact .inl rfl
  · rw [← Except.ok.inj (hv.symm.trans h)]
    exact .inr hvu

theorem eq_of_error (h : step s = .error r) (hu : Reaches step s u) : u = s := by
  rcases Relation.ReflTransGen.cases_head hu with rfl | ⟨v, hv, -⟩
  · rfl
  · cases hv.symm.trans h

theorem invariant {P : S → Prop} (h : Reaches step s t) (hs : P s)
    (hstep : ∀ u v, Reaches step s u → step u = .ok v → P u → P v) : P t := by
  induction h with
  | refl => exact hs
  | tail hu hv ih => exact hstep _ _ hu hv ih

theorem backward {P : S → Prop} (h : Reaches step s t) (ht : P t)
    (hstep : ∀ u v, Reaches step s u → step u = .ok v → P v → P u) : P s := by
  have key : ∀ u, Reaches step u t → Reaches step s u → P u := by
    intro u hu
    induction hu using Relation.ReflTransGen.head_induction_on with
    | refl => exact fun _ => ht
    | head huv _ ih => exact fun hsu => hstep _ _ hsu huv (ih (hsu.tail huv))
  exact key s h (refl s)

end Reaches

namespace Halts

theorem of_step (h : ∀ t, step s = .ok t → Halts step t) : Halts step s := by
  cases hs : step s with
  | error r => exact Halts.stop hs
  | ok t => exact Halts.next hs (h t hs)

theorem stopsWith (h : Halts step s) : ∃ r, StopsWith step s r := by
  induction h with
  | stop hr => exact ⟨_, _, Reaches.refl _, hr⟩
  | next hst _ ih =>
    obtain ⟨r, t, ht, hr⟩ := ih
    exact ⟨r, t, ht.head hst, hr⟩

theorem of_reaches (h : Halts step s) (hst : Reaches step s t) : Halts step t := by
  refine hst.invariant h fun u v _ huv hu => ?_
  cases hu with
  | stop hr =>
    rw [huv] at hr
    cases hr
  | next hv hh =>
    rw [huv, Except.ok.injEq] at hv
    exact hv ▸ hh

end Halts

theorem StopsWith.halts (h : StopsWith step s r) : Halts step s := by
  obtain ⟨t, ht, hr⟩ := h
  exact ht.backward (Halts.stop hr) fun u v _ huv hv => Halts.next huv hv

theorem StopsWith.head (h : step s = .ok t) (hr : StopsWith step t r) : StopsWith step s r :=
  let ⟨u, hu, hur⟩ := hr
  ⟨u, hu.head h, hur⟩

theorem Reaches.stopsWith (h : Reaches step s t) (hr : StopsWith step t r) : StopsWith step s r :=
  let ⟨u, hu, hur⟩ := hr
  ⟨u, h.trans hu, hur⟩

theorem StopsWith.tail (h : step s = .ok t) (hr : StopsWith step s r) : StopsWith step t r := by
  obtain ⟨u, hu, hur⟩ := hr
  rcases Relation.ReflTransGen.cases_head hu with rfl | ⟨v, hv, hvu⟩
  · rw [h] at hur
    cases hur
  · obtain rfl : t = v := Except.ok.inj (h.symm.trans hv)
    exact ⟨u, hvu, hur⟩

theorem StopsWith.eq_of_error {r' : R} (h : step s = .error r') (hr : StopsWith step s r) :
    r = r' := by
  obtain ⟨u, hu, hur⟩ := hr
  rcases Relation.ReflTransGen.cases_head hu with rfl | ⟨v, hv, -⟩
  · exact Except.error.inj (hur.symm.trans h)
  · rw [h] at hv
    cases hv

theorem StopsWith.unique {r' : R} (h : StopsWith step s r) (h' : StopsWith step s r') :
    r = r' := by
  obtain ⟨t, ht, hr⟩ := h
  refine ht.backward (P := fun u => ∀ r', StopsWith step u r' → r = r') ?_ ?_ r' h'
  · rintro r' ⟨u, hu, hur⟩
    rcases Relation.ReflTransGen.cases_head hu with rfl | ⟨v, hv, -⟩
    · rw [hr] at hur
      exact Except.error.inj hur
    · rw [hr] at hv
      cases hv
  · rintro u v - huv hv r' ⟨w, hw, hwr⟩
    rcases Relation.ReflTransGen.cases_head hw with rfl | ⟨v', hv', hvw⟩
    · rw [huv] at hwr
      cases hwr
    · rw [huv, Except.ok.injEq] at hv'
      exact hv r' ⟨w, hv' ▸ hvw, hwr⟩

theorem not_halts_of_trap {P : S → Prop} (htrap : ∀ s, P s → ∃ t, step s = .ok t ∧ P t)
    (hs : P s) : ¬ Halts step s := by
  intro h
  induction h with
  | stop hr =>
    obtain ⟨t, ht, -⟩ := htrap _ hs
    rw [hr] at ht
    cases ht
  | next hst _ ih =>
    obtain ⟨t, ht, hp⟩ := htrap _ hs
    rw [hst, Except.ok.injEq] at ht
    exact ih (ht ▸ hp)

theorem not_halts_of_return {P : S → Prop}
    (hreturn : ∀ s, P s → ∃ t u, step s = .ok t ∧ Reaches step t u ∧ P u) (hs : P s) :
    ¬ Halts step s := by
  intro h
  suffices key : ∀ u, Reaches step s u → ¬ P u from key s (Reaches.refl s) hs
  clear hs
  induction h with
  | stop hr =>
    intro u hu hp
    rcases Relation.ReflTransGen.cases_head hu with rfl | ⟨v, hv, -⟩
    · obtain ⟨t, -, ht, -⟩ := hreturn _ hp
      rw [hr] at ht
      cases ht
    · rw [hr] at hv
      cases hv
  | next hst _ ih =>
    intro u hu hp
    rcases Relation.ReflTransGen.cases_head hu with rfl | ⟨v, hv, hvu⟩
    · obtain ⟨t, w, ht, htw, hw⟩ := hreturn _ hp
      rw [hst, Except.ok.injEq] at ht
      exact ih w (ht ▸ htw) hw
    · rw [hst, Except.ok.injEq] at hv
      exact ih u (hv ▸ hvu) hp

theorem runFor_succ : ∀ (n : ℕ) (s : S), runFor step (n + 1) s = (runFor step n s).bind step
  | 0, s => by
    show (step s).bind (fun t => .ok t) = step s
    cases step s <;> rfl
  | n + 1, s => by
    show (step s).bind (runFor step (n + 1)) = ((step s).bind (runFor step n)).bind step
    cases h : step s with
    | error r => rfl
    | ok t => exact runFor_succ n t

theorem reaches_of_runFor : ∀ {n : ℕ} {s : S}, runFor step n s = .ok t → Reaches step s t
  | 0, s, h => by
    cases h
    exact Reaches.refl _
  | n + 1, s, h => by
    unfold runFor at h
    cases hs : step s with
    | error r =>
      rw [hs] at h
      cases h
    | ok u =>
      rw [hs] at h
      exact (reaches_of_runFor h).head hs

theorem stopsWith_of_runFor : ∀ {n : ℕ} {s : S}, runFor step n s = .error r → StopsWith step s r
  | 0, s, h => by cases h
  | n + 1, s, h => by
    unfold runFor at h
    cases hs : step s with
    | error r' =>
      rw [hs] at h
      cases h
      exact ⟨s, Reaches.refl s, hs⟩
    | ok u =>
      rw [hs] at h
      exact (stopsWith_of_runFor h).head hs

/-! ## Acyclic graphs -/

theorem acc_of_acyclic {α : Type*} [Finite α] {r : α → α → Prop} {a : α}
    (h : ∀ b, Relation.ReflTransGen r a b → ¬ Relation.TransGen r b b) :
    Acc (fun y x => r x y) a := by
  let below : {b // Relation.ReflTransGen r a b} → {b // Relation.ReflTransGen r a b} → Prop :=
    fun y x => Relation.TransGen r x.1 y.1
  have htrans : IsTrans _ below := ⟨fun _ _ _ hxy hyz => hyz.trans hxy⟩
  have hirrefl : Std.Irrefl below := ⟨fun x => h x.1 x.2⟩
  have hwf : WellFounded below := Finite.wellFounded_of_trans_of_irrefl below
  have key : ∀ x : {b // Relation.ReflTransGen r a b}, Acc (fun y x => r x y) x.1 := by
    intro x
    induction x using hwf.induction with
    | h x ih =>
      exact Acc.intro x.1 fun y hy => ih ⟨y, x.2.tail hy⟩ (Relation.TransGen.single hy)
  exact key ⟨a, Relation.ReflTransGen.refl⟩

end Machine
