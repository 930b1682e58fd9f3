import Dive.Lib.Machine

/-!
# Recursive programs that follow a machine

* `Answer`: what a program that is given fuel returns.
* `Follows`: the answer describes the run of a machine; `Follows.bind` composes programs.
* **`stopsWith_iff_of_follows`**: a program that follows a machine with any fuel answers exactly when
  the machine stops, and as it stops.
-/

namespace Machine

/-- A value, a failure, or (`none`) that the fuel is spent. -/
abbrev Answer (F α : Type*) : Type _ := Except (Option F) α

variable {S R F α β : Type*} {step : S → Except R S} {fails : F → R} {fuel : ℕ} {s t : S} {r : R}
  {f : F} {x : Answer F α} {Q : α → S → Prop}

/-- The answer, given with the fuel, describes the run from `s`: it comes to a state as `Q` says of
the value, it stops with the failure, or it takes as many steps as there was fuel. -/
def Follows (step : S → Except R S) (fails : F → R) (fuel : ℕ) (s : S) (x : Answer F α)
    (Q : α → S → Prop) : Prop :=
  match x with
  | .ok a => ∃ t, Reaches step s t ∧ Q a t
  | .error (some f) => StopsWith step s (fails f)
  | .error none => ∃ t, runFor step fuel s = .ok t

theorem exists_runFor_of_succ {n : ℕ} (h : ∃ t, runFor step (n + 1) s = .ok t) :
    ∃ t, runFor step n s = .ok t := by
  obtain ⟨t, h⟩ := h
  rw [runFor_succ] at h
  obtain ⟨u, hu, -⟩ := bind_eq_ok.mp h
  exact ⟨u, hu⟩

theorem exists_runFor_of_step {n : ℕ} (h : step s = .ok t) (ht : ∃ u, runFor step n t = .ok u) :
    ∃ u, runFor step (n + 1) s = .ok u := by
  obtain ⟨u, hu⟩ := ht
  exact ⟨u, bind_eq_ok.mpr ⟨t, h, hu⟩⟩

namespace Follows

theorem done {a : α} (h : Q a s) : Follows step fails fuel s (.ok a) Q := ⟨s, Reaches.refl s, h⟩

theorem stop (h : step s = .error (fails f)) :
    Follows step fails fuel s (.error (some f) : Answer F α) Q := ⟨s, Reaches.refl s, h⟩

theorem spent : Follows step fails 0 s (.error none : Answer F α) Q := ⟨s, rfl⟩

theorem next (h : step s = .ok t) (hx : Follows step fails fuel t x Q) :
    Follows step fails (fuel + 1) s x Q := by
  match x, hx with
  | .ok a, ⟨u, hu, ha⟩ => exact ⟨u, hu.head h, ha⟩
  | .error (some f), hf => exact StopsWith.head h hf
  | .error none, hn => exact exists_runFor_of_step h hn

theorem weaken (hx : Follows step fails (fuel + 1) s x Q) : Follows step fails fuel s x Q := by
  match x, hx with
  | .ok a, ha => exact ha
  | .error (some f), hf => exact hf
  | .error none, hn => exact exists_runFor_of_succ hn

theorem after (h : Reaches step s t) (hx : Follows step fails fuel t x Q) :
    Follows step fails fuel s x Q := by
  induction h using Relation.ReflTransGen.head_induction_on with
  | refl => exact hx
  | head hstep _ ih => exact (ih.next hstep).weaken

theorem goOn {Q' : α → S → Prop} (hx : Follows step fails fuel s x Q)
    (h : ∀ a t, Q a t → ∃ u, Reaches step t u ∧ Q' a u) : Follows step fails fuel s x Q' := by
  match x, hx with
  | .ok a, ⟨t, ht, ha⟩ =>
    obtain ⟨u, hu, ha'⟩ := h a t ha
    exact ⟨u, ht.trans hu, ha'⟩
  | .error (some f), hf => exact hf
  | .error none, hn => exact hn

theorem mono {Q' : α → S → Prop} (hx : Follows step fails fuel s x Q)
    (h : ∀ a t, Q a t → Q' a t) : Follows step fails fuel s x Q' :=
  hx.goOn fun a t ha => ⟨t, Reaches.refl t, h a t ha⟩

theorem bind {y : α → Answer F β} {Q' : β → S → Prop} (hx : Follows step fails fuel s x Q)
    (hy : ∀ a t, Q a t → Follows step fails fuel t (y a) Q') :
    Follows step fails fuel s (x.bind y) Q' := by
  match x, hx with
  | .ok a, ⟨u, hu, ha⟩ => exact (hy a u ha).after hu
  | .error (some f), hf => exact hf
  | .error none, hn => exact hn

end Follows

theorem Halts.exists_runFor (h : Halts step s) : ∃ n r, runFor step n s = .error r := by
  induction h with
  | @stop s r hr =>
    refine ⟨1, r, ?_⟩
    rw [runFor, hr]
    rfl
  | next hst _ ih =>
    obtain ⟨n, r, hn⟩ := ih
    refine ⟨n + 1, r, ?_⟩
    rw [runFor, hst]
    exact hn

theorem Reaches.stop_unique {u : S} {r' : R} (ht : Reaches step s t) (hr : step t = .error r)
    (hu : Reaches step s u) (hr' : step u = .error r') : t = u := by
  induction ht using Relation.ReflTransGen.head_induction_on with
  | refl =>
    rcases Relation.ReflTransGen.cases_head hu with h | ⟨v, hv, -⟩
    · exact h
    · rw [hr] at hv
      cases hv
  | head hst _ ih =>
    rcases Relation.ReflTransGen.cases_head hu with rfl | ⟨v, hv, hvu⟩
    · rw [hst] at hr'
      cases hr'
    · rw [hst, Except.ok.injEq] at hv
      exact ih (hv ▸ hvu)

theorem exists_fuel {x : ℕ → Answer F α} (hx : ∀ fuel, Follows step fails fuel s (x fuel) Q)
    (h : Halts step s) : ∃ fuel, x fuel ≠ .error none := by
  obtain ⟨n, r, hn⟩ := h.exists_runFor
  refine ⟨n, fun hnone => ?_⟩
  have hrun := hx n
  rw [hnone] at hrun
  obtain ⟨t, ht⟩ := hrun
  rw [hn] at ht
  cases ht

section

variable {x : ℕ → Answer F α} {done : R} (hx : ∀ fuel, Follows step fails fuel s (x fuel) Q)
  (hstop : ∀ a t, Q a t → step t = .error done)

include hx hstop

/-- **Termination.** Some fuel is enough if the machine stops. -/
theorem halts_iff_of_follows : Halts step s ↔ ∃ fuel, x fuel ≠ .error none := by
  constructor
  · exact exists_fuel hx
  · rintro ⟨fuel, hfuel⟩
    have hrun := hx fuel
    match hxf : x fuel with
    | .ok a =>
      rw [hxf] at hrun
      obtain ⟨t, ht, ha⟩ := hrun
      exact StopsWith.halts ⟨t, ht, hstop a t ha⟩
    | .error (some f) =>
      rw [hxf] at hrun
      exact StopsWith.halts hrun
    | .error none => exact absurd hxf hfuel

variable (hdone : ∀ f, fails f ≠ done)

include hdone

/-- **Failures.** The program fails as the machine does. -/
theorem stopsWith_iff_of_follows (hinj : Function.Injective fails) :
    StopsWith step s (fails f) ↔ ∃ fuel, x fuel = .error (some f) := by
  constructor
  · intro h
    obtain ⟨fuel, hfuel⟩ := exists_fuel hx h.halts
    have hrun := hx fuel
    refine ⟨fuel, ?_⟩
    match hxf : x fuel with
    | .ok a =>
      rw [hxf] at hrun
      obtain ⟨t, ht, ha⟩ := hrun
      exact absurd (h.unique ⟨t, ht, hstop a t ha⟩) (hdone f)
    | .error (some f') =>
      rw [hxf] at hrun
      rw [hinj (h.unique hrun)]
    | .error none => exact absurd hxf hfuel
  · rintro ⟨fuel, hfuel⟩
    have hrun := hx fuel
    rw [hfuel] at hrun
    exact hrun

/-- **Success.** The program has the value that the machine has, read off by `v`, when it is done. -/
theorem done_iff_of_follows {a : α} {v : S → α} (hv : ∀ a t, Q a t → v t = a) :
    (∃ t, Reaches step s t ∧ step t = .error done ∧ v t = a) ↔ ∃ fuel, x fuel = .ok a := by
  constructor
  · rintro ⟨t, ht, hr, rfl⟩
    have h : StopsWith step s done := ⟨t, ht, hr⟩
    obtain ⟨fuel, hfuel⟩ := exists_fuel hx h.halts
    have hrun := hx fuel
    refine ⟨fuel, ?_⟩
    match hxf : x fuel with
    | .ok a =>
      rw [hxf] at hrun
      obtain ⟨u, hu, ha⟩ := hrun
      rw [ht.stop_unique hr hu (hstop a u ha), hv a u ha]
    | .error (some f) =>
      rw [hxf] at hrun
      exact absurd (StopsWith.unique hrun h) (hdone f)
    | .error none => exact absurd hxf hfuel
  · rintro ⟨fuel, hfuel⟩
    have hrun := hx fuel
    rw [hfuel] at hrun
    obtain ⟨t, ht, ha⟩ := hrun
    exact ⟨t, ht, hstop _ t ha, hv _ t ha⟩

end

end Machine
