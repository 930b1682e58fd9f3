import Mathlib.Data.List.Infix
import Mathlib.Data.Option.Basic

/-!
# Monitors of event lists

* `Monitor.run`: the state of a partial automaton after a list of events.
* `run_split`: an accepted list, cut at one of its events; `run_invariant`, `run_history`.
* **`run_simulation`**: a monitor that follows another one event by event follows its runs;
  `run_related`, `run_rel`: two runs over the same events.
* `Meets`: each event comes in a state in which a condition allows it; `run_of_meets`,
  `run_simulation_of_meets`.
* `Along`: each step of a run of a total automaton meets a condition; **`good_iff_along`**.
-/

namespace Monitor

variable {S S' A : Type*}

/-- The state after the events of a list, if all are accepted. -/
def run (δ : S → A → Option S) : S → List A → Option S
  | s, [] => some s
  | s, a :: t => (δ s a).bind fun s => run δ s t

variable {δ : S → A → Option S} {δ' : S' → A → Option S'} {s u : S} {s' : S'} {a : A}
  {t t' : List A}

@[simp] theorem run_nil : run δ s [] = some s := rfl

theorem run_eq_foldlM : ∀ (t : List A) (s : S), run δ s t = t.foldlM δ s
  | [], _ => rfl
  | a :: t, s => by
    rw [run, List.foldlM_cons]
    cases δ s a with
    | none => rfl
    | some w => exact run_eq_foldlM t w

theorem run_cons_of (h : δ s a = some u) : run δ s (a :: t) = run δ u t := by
  rw [run, h]
  rfl

theorem run_append_of : ∀ {t : List A} {s : S}, run δ s t = some u →
    run δ s (t ++ t') = run δ u t'
  | [], s, h => by
    cases h
    rfl
  | a :: t, s, h => by
    unfold run at h
    obtain ⟨v, hv, hrun⟩ := Option.bind_eq_some_iff.mp h
    rw [List.cons_append, run_cons_of hv]
    exact run_append_of hrun

theorem run_split : ∀ {t : List A} {s : S}, run δ s (t ++ a :: t') = some u →
    ∃ v w, run δ s t = some v ∧ δ v a = some w ∧ run δ w t' = some u
  | [], s, h => by
    obtain ⟨w, hw, hrun⟩ := Option.bind_eq_some_iff.mp h
    exact ⟨s, w, rfl, hw, hrun⟩
  | b :: t, s, h => by
    obtain ⟨v, hv, hrun⟩ := Option.bind_eq_some_iff.mp h
    obtain ⟨x, w, hx, hw, hrest⟩ := run_split hrun
    exact ⟨x, w, (run_cons_of hv).trans hx, hw, hrest⟩

theorem run_invariant {P : S → Prop} : ∀ {t : List A} {s : S}, P s → run δ s t = some u →
    (∀ a ∈ t, ∀ v w, P v → δ v a = some w → P w) → P u
  | [], s, hs, h, _ => by
    cases h
    exact hs
  | a :: t, s, hs, h, hstep => by
    obtain ⟨v, hv, hrun⟩ := Option.bind_eq_some_iff.mp h
    exact run_invariant (hstep a List.mem_cons_self _ _ hs hv) hrun
      fun b hb => hstep b (List.mem_cons_of_mem a hb)

theorem run_history {P : List A → S → Prop} (hnil : P [] s)
    (hstep : ∀ t v a w, P t v → δ v a = some w → P (t ++ [a]) w) (h : run δ s t = some u) :
    P t u := by
  induction t using List.reverseRecOn generalizing u with
  | nil =>
    cases h
    exact hnil
  | append_singleton t a ih =>
    obtain ⟨v, w, hv, hw, hu⟩ := run_split h
    cases hu
    exact hstep t v a _ (ih hv) hw

/-- **Simulation.** -/
theorem run_simulation {R : S → S' → Prop} : ∀ {t : List A} {s : S} {s' : S'}, R s s' →
    run δ s t = some u → (∀ a ∈ t, ∀ v w v', R v v' → δ v a = some w →
      ∃ w', δ' v' a = some w' ∧ R w w') → ∃ u', run δ' s' t = some u' ∧ R u u'
  | [], s, s', hs, h, _ => by
    cases h
    exact ⟨s', rfl, hs⟩
  | a :: t, s, s', hs, h, hstep => by
    obtain ⟨v, hv, hrun⟩ := Option.bind_eq_some_iff.mp h
    obtain ⟨v', hv', hR⟩ := hstep a List.mem_cons_self _ _ _ hs hv
    obtain ⟨u', hu', hRu⟩ := run_simulation hR hrun fun b hb => hstep b (List.mem_cons_of_mem a hb)
    exact ⟨u', (run_cons_of hv').trans hu', hRu⟩

theorem run_rel {R : S → S' → Prop} : ∀ {t : List A} {s : S} {s' : S'}, R s s' →
    (∀ a v v', R v v' → Option.Rel R (δ v a) (δ' v' a)) →
      Option.Rel R (run δ s t) (run δ' s' t)
  | [], _, _, hs, _ => .some hs
  | a :: t, s, s', hs, hstep => by
    have ha := hstep a s s' hs
    unfold run
    cases hv : δ s a with
    | none =>
      cases hv' : δ' s' a with
      | none => exact .none
      | some w' =>
        rw [hv, hv'] at ha
        cases ha
    | some w =>
      cases hv' : δ' s' a with
      | none =>
        rw [hv, hv'] at ha
        cases ha
      | some w' =>
        rw [hv, hv'] at ha
        cases ha with
        | some hw => exact run_rel hw hstep

theorem run_related {R : S → S' → Prop} {u' : S'} : ∀ {t : List A} {s : S} {s' : S'}, R s s' →
    run δ s t = some u → run δ' s' t = some u' →
    (∀ a ∈ t, ∀ v w v' w', R v v' → δ v a = some w → δ' v' a = some w' → R w w') → R u u'
  | [], s, s', hs, h, h', _ => by
    cases h
    cases h'
    exact hs
  | a :: t, s, s', hs, h, h', hstep => by
    obtain ⟨v, hv, hrun⟩ := Option.bind_eq_some_iff.mp h
    obtain ⟨v', hv', hrun'⟩ := Option.bind_eq_some_iff.mp h'
    exact run_related (hstep a List.mem_cons_self _ _ _ _ hs hv hv') hrun hrun' fun b hb =>
      hstep b (List.mem_cons_of_mem a hb)

theorem run_prefix : ∀ {t : List A} {s : S}, run δ s (t ++ t') = some u → ∃ v, run δ s t = some v
  | [], s, _ => ⟨s, rfl⟩
  | a :: t, s, h => by
    obtain ⟨v, hv, hrun⟩ := Option.bind_eq_some_iff.mp h
    obtain ⟨w, hw⟩ := run_prefix hrun
    exact ⟨w, (run_cons_of hv).trans hw⟩

/-! ## The state before each event -/

/-- Each event of a list comes in a state in which `P` allows it. -/
def Meets (δ : S → A → Option S) (P : S → A → Prop) : S → List A → Prop
  | _, [] => True
  | s, a :: t => P s a ∧ ∀ u, δ s a = some u → Meets δ P u t

theorem meets_cons {P : S → A → Prop} (h : δ s a = some u) :
    Meets δ P s (a :: t) ↔ P s a ∧ Meets δ P u t := by
  rw [Meets, h]
  simp

theorem meets_append {P : S → A → Prop} : ∀ {t : List A} {s : S}, run δ s t = some u →
    (Meets δ P s (t ++ t') ↔ Meets δ P s t ∧ Meets δ P u t')
  | [], s, h => by
    cases h
    simp [Meets]
  | a :: t, s, h => by
    obtain ⟨v, hv, hrun⟩ := Option.bind_eq_some_iff.mp h
    rw [List.cons_append, meets_cons hv, meets_cons hv, meets_append hrun, and_assoc]

instance decidableMeets {P : S → A → Prop} [∀ s a, Decidable (P s a)] :
    ∀ (t : List A) (s : S), Decidable (Meets δ P s t)
  | [], _ => .isTrue trivial
  | a :: t, s =>
    match h : δ s a with
    | none => decidable_of_iff (P s a) (by simp [Meets, h])
    | some u =>
      have : Decidable (Meets δ P u t) := decidableMeets t u
      decidable_of_iff (P s a ∧ Meets δ P u t) (meets_cons h).symm

theorem run_of_meets {P : S → A → Prop} {I : S → Prop}
    (hstep : ∀ s a u, I s → P s a → δ s a = some u → I u) : ∀ {t : List A} {s : S}, I s →
      Meets δ P s t → run δ s t = some u → I u
  | [], s, hs, _, h => by
    cases h
    exact hs
  | a :: t, s, hs, hmeets, h => by
    obtain ⟨v, hv, hrun⟩ := Option.bind_eq_some_iff.mp h
    exact run_of_meets hstep (hstep s a v hs hmeets.1 hv) (hmeets.2 v hv) hrun

theorem run_simulation_of_meets {P : S' → A → Prop} {R : S → S' → Prop}
    (hstep : ∀ s a u s', R s s' → P s' a → δ s a = some u → ∃ u', δ' s' a = some u' ∧ R u u') :
    ∀ {t : List A} {s : S} {s' : S'}, R s s' → Meets δ' P s' t → run δ s t = some u →
      ∃ u', run δ' s' t = some u' ∧ R u u'
  | [], s, s', hs, _, h => by
    cases h
    exact ⟨s', rfl, hs⟩
  | a :: t, s, s', hs, hmeets, h => by
    obtain ⟨v, hv, hrun⟩ := Option.bind_eq_some_iff.mp h
    obtain ⟨v', hv', hR⟩ := hstep s a v s' hs hmeets.1 hv
    obtain ⟨u', hu', hRu⟩ := run_simulation_of_meets hstep hR (hmeets.2 v' hv') hrun
    exact ⟨u', (run_cons_of hv').trans hu', hRu⟩

/-! ## Total steps -/

section Total

variable {next : S → A → S} {P : S → A → Prop} {I : S → Prop}

/-- Each step of a run meets `P` in the state before it. -/
def Along (next : S → A → S) (P : S → A → Prop) : S → List A → Prop
  | _, [] => True
  | s, a :: t => P s a ∧ Along next P (next s a) t

theorem foldl_along (hstep : ∀ s a, I s → P s a → I (next s a)) : ∀ {t : List A} {s : S},
    I s → Along next P s t → I (t.foldl next s)
  | [], _, hs, _ => hs
  | a :: t, s, hs, h => foldl_along (t := t) (s := next s a) hstep (hstep s a hs h.1) h.2

theorem Along.of_append : ∀ {t t' : List A} {s : S}, Along next P s (t ++ t') → Along next P s t
  | [], _, _, _ => trivial
  | _ :: _, _, _, h => ⟨h.1, Along.of_append h.2⟩

theorem along_append : ∀ {t t' : List A} {s : S},
    Along next P s (t ++ t') ↔ Along next P s t ∧ Along next P (t.foldl next s) t'
  | [], t', s => by simp [Along]
  | a :: t, t', s => by
    rw [List.cons_append, Along, along_append, Along, List.foldl_cons, and_assoc]

theorem along_iff {t : List A} {s : S} :
    Along next P s t ↔ ∀ t₁ a t₂, t = t₁ ++ a :: t₂ → P (t₁.foldl next s) a := by
  constructor
  · rintro h t₁ a t₂ rfl
    exact (along_append.mp h).2.1
  · intro h
    induction t generalizing s with
    | nil => trivial
    | cons a t ih =>
      refine ⟨h [] a t rfl, ih fun t₁ b t₂ ht => ?_⟩
      exact h (a :: t₁) b t₂ (by rw [ht, List.cons_append])

theorem along_concat : ∀ {t : List A} {s : S},
    Along next P s (t ++ [a]) ↔ Along next P s t ∧ P (t.foldl next s) a
  | [], s => by simp [Along]
  | b :: t, s => by
    rw [List.cons_append, Along, along_concat (t := t), Along, and_assoc]
    rfl

/-- **A run stays good exactly when its steps meet the condition.** -/
theorem good_iff_along {Good : S → Prop} (hgood : ∀ s, I s → Good s)
    (hstep : ∀ s a, I s → P s a → I (next s a))
    (hfail : ∀ s a, I s → Good (next s a) → P s a) : ∀ {t : List A} {s : S}, I s →
      ((∀ u, u <+: t → Good (u.foldl next s)) ↔ Along next P s t)
  | [], s, hs => by
    refine ⟨fun _ => trivial, fun _ u hu => ?_⟩
    rw [List.prefix_nil.mp hu]
    exact hgood s hs
  | a :: t, s, hs => by
    constructor
    · intro h
      have hp := hfail s a hs (h [a] ⟨t, rfl⟩)
      refine ⟨hp, (good_iff_along hgood hstep hfail (hstep s a hs hp)).mp fun u hu => ?_⟩
      exact h (a :: u) (List.cons_prefix_cons.mpr ⟨rfl, hu⟩)
    · rintro h u ⟨v, hv⟩
      exact hgood _ (foldl_along hstep hs (Along.of_append (hv ▸ h)))

end Total

end Monitor
