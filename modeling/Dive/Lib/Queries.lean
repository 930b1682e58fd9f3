import Mathlib.Logic.Basic

/-!
# Programs that ask questions

* `Query`: a program that asks questions in `Q`, gets answers in `A` and returns a value; a monad.
* `run`, `asked`: its value and its questions, under a function that answers.
* `AllAsked`, with its rules: all questions of a program are of a kind.
* **`asked_congr`**: what answers the questions asked alike gets the same questions and the same
  value.
* `outcome`, **`outcome_congr`**, `answers_eq_of_outcome_eq`: the value with a part of every answer.
-/

/-- A program that asks questions. -/
inductive Query (Q A α : Type)
  | ret (a : α)
  | ask (q : Q) (k : A → Query Q A α)

namespace Query

variable {Q A α β γ : Type}

/-- The one question `q`. -/
def question (q : Q) : Query Q A A := ask q ret

def bind : Query Q A α → (α → Query Q A β) → Query Q A β
  | ret a, f => f a
  | ask q k, f => ask q fun a => (k a).bind f

instance : Monad (Query Q A) where
  pure := ret
  bind := bind

/-- The value of a program, when `answer` answers. -/
def run (answer : Q → A) : Query Q A α → α
  | ret a => a
  | ask q k => (k (answer q)).run answer

/-- The questions of a program, when `answer` answers. -/
def asked (answer : Q → A) : Query Q A α → List Q
  | ret _ => []
  | ask q k => q :: (k (answer q)).asked answer

section Rules

variable (answer : Q → A)

@[simp] theorem run_pure (a : α) : run answer (pure a : Query Q A α) = a := rfl

@[simp] theorem asked_pure (a : α) : asked answer (pure a : Query Q A α) = [] := rfl

@[simp] theorem run_question (q : Q) : run answer (question q) = answer q := rfl

@[simp] theorem asked_question (q : Q) : asked answer (question q : Query Q A A) = [q] := rfl

@[simp] theorem run_bind (p : Query Q A α) (f : α → Query Q A β) :
    run answer (p >>= f) = run answer (f (run answer p)) := by
  induction p with
  | ret a => rfl
  | ask q k ih => exact ih (answer q)

@[simp] theorem asked_bind (p : Query Q A α) (f : α → Query Q A β) :
    asked answer (p >>= f) = asked answer p ++ asked answer (f (run answer p)) := by
  induction p with
  | ret a => rfl
  | ask q k ih => exact congrArg (q :: ·) (ih (answer q))

@[simp] theorem run_map (f : α → β) (p : Query Q A α) :
    run answer (f <$> p) = f (run answer p) := by
  exact run_bind answer p fun a => pure (f a)

@[simp] theorem asked_map (f : α → β) (p : Query Q A α) :
    asked answer (f <$> p) = asked answer p := by
  exact (asked_bind answer p fun a => pure (f a)).trans (List.append_nil _)

@[simp] theorem run_ite (c : Prop) [Decidable c] (p q : Query Q A α) :
    run answer (if c then p else q) = if c then run answer p else run answer q := by
  split <;> rfl

@[simp] theorem asked_ite (c : Prop) [Decidable c] (p q : Query Q A α) :
    asked answer (if c then p else q) = if c then asked answer p else asked answer q := by
  split <;> rfl

end Rules

/-! ## Kinds of questions -/

section AllAsked

variable {P : Q → Prop} {answer : Q → A}

/-- All questions of the program are of a kind. -/
def AllAsked (P : Q → Prop) (answer : Q → A) (p : Query Q A α) : Prop := ∀ q ∈ p.asked answer, P q

theorem allAsked_pure (a : α) : AllAsked P answer (pure a : Query Q A α) := by
  simp [AllAsked]

theorem allAsked_question {q : Q} :
    AllAsked P answer (question q : Query Q A A) ↔ P q := by
  simp [AllAsked]

theorem allAsked_map {f : α → β} {p : Query Q A α} :
    AllAsked P answer (f <$> p) ↔ AllAsked P answer p := by
  rw [AllAsked, asked_map, AllAsked]

theorem AllAsked.bind {p : Query Q A α} {f : α → Query Q A β} (hp : AllAsked P answer p)
    (hf : AllAsked P answer (f (run answer p))) : AllAsked P answer (p >>= f) := by
  intro q hq
  rw [asked_bind, List.mem_append] at hq
  cases hq with
  | inl hq => exact hp q hq
  | inr hq => exact hf q hq

theorem AllAsked.ite {c : Prop} [Decidable c] {p p' : Query Q A α}
    (hp : c → AllAsked P answer p) (hp' : ¬ c → AllAsked P answer p') :
    AllAsked P answer (if c then p else p') := by
  by_cases h : c
  · rw [if_pos h]
    exact hp h
  · rw [if_neg h]
    exact hp' h

end AllAsked

/-! ## Equal answers -/

variable {answer answer' : Q → A}

/-- **A program sees no more than the answers to its questions.** -/
theorem asked_congr (p : Query Q A α) (h : ∀ q ∈ p.asked answer, answer q = answer' q) :
    p.asked answer' = p.asked answer ∧ p.run answer' = p.run answer := by
  induction p with
  | ret a => exact ⟨rfl, rfl⟩
  | ask q k ih =>
    have hq : answer q = answer' q := h q List.mem_cons_self
    have hrest := ih (answer q) fun q' hq' => h q' (List.mem_cons_of_mem _ hq')
    rw [asked, asked, run, run, ← hq, hrest.1, hrest.2]
    exact ⟨rfl, rfl⟩

/-- The value of a program with what `f` gives of each answer. -/
def outcome (f : A → γ) (answer : Q → A) (p : Query Q A α) : α × List γ :=
  (p.run answer, (p.asked answer).map fun q => f (answer q))

/-- **Equal answers give equal outcomes.** -/
theorem outcome_congr (f : A → γ) (p : Query Q A α)
    (h : ∀ q ∈ p.asked answer, answer q = answer' q) :
    p.outcome f answer' = p.outcome f answer := by
  have hcongr := asked_congr p h
  rw [outcome, outcome, hcongr.1, hcongr.2, Prod.mk.injEq]
  refine ⟨rfl, List.map_congr_left fun q hq => ?_⟩
  rw [h q hq]

theorem answers_eq_of_outcome_eq {f : A → γ}
    (hf : ∀ q, f (answer q) = f (answer' q) → answer q = answer' q) {p : Query Q A α}
    (h : p.outcome f answer = p.outcome f answer') :
    ∀ q ∈ p.asked answer, answer q = answer' q := by
  induction p with
  | ret a => simp [asked]
  | ask q k ih =>
    have hparts := (Prod.mk.injEq ..).mp h
    rw [asked, asked, List.map_cons, List.map_cons, List.cons.injEq] at hparts
    have hq : answer q = answer' q := hf q hparts.2.1
    have hrest : (k (answer q)).outcome f answer = (k (answer q)).outcome f answer' := by
      rw [outcome, outcome, Prod.mk.injEq]
      refine ⟨?_, ?_⟩
      · have hrun := hparts.1
        rw [run, run, ← hq] at hrun
        exact hrun
      · rw [hparts.2.2, ← hq]
    intro q' hq'
    rw [asked, List.mem_cons] at hq'
    cases hq' with
    | inl heq => rw [heq]; exact hq
    | inr hmem => exact ih (answer q) hrest q' hmem

end Query
