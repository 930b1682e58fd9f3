import Mathlib.Logic.Basic

/-!
# Stateful code that can fail

* `Fallible`: code over a state that returns a value or fails; a failure keeps the state reached.
* `outcome`: the result and the state after a call. **`outcome_bind`** composes outcomes.
* `attempt`: a call whose failure the caller looks at.
-/

/-- Code over a state `σ` that may fail with an `ε`. -/
abbrev Fallible (σ ε : Type) : Type → Type := ExceptT ε (StateM σ)

namespace Fallible

variable {σ ε α β : Type} {s t u : σ} {a : α} {b : β} {e : ε}

/-- The result of a call in state `s`, and the state after it. -/
def outcome (x : Fallible σ ε α) (s : σ) : Except ε α × σ := (ExceptT.run x).run s

@[simp] theorem outcome_pure : outcome (pure a : Fallible σ ε α) s = (.ok a, s) := rfl

@[simp] theorem outcome_throw : outcome (throw e : Fallible σ ε α) s = (.error e, s) := rfl

@[simp] theorem outcome_get : outcome (get : Fallible σ ε σ) s = (.ok s, s) := rfl

@[simp] theorem outcome_set : outcome (set t : Fallible σ ε PUnit) s = (.ok ⟨⟩, t) := rfl

@[simp] theorem outcome_modify (f : σ → σ) :
    outcome (modify f : Fallible σ ε PUnit) s = (.ok ⟨⟩, f s) := rfl

@[simp] theorem outcome_modifyGet (f : σ → α × σ) :
    outcome (modifyGet f : Fallible σ ε α) s = (.ok (f s).1, (f s).2) := rfl

/-- The result of a call, as a value: what a caller sees who looks at it himself. -/
def attempt (x : Fallible σ ε α) : Fallible σ ε (Except ε α) := modifyGet fun s => outcome x s

@[simp] theorem outcome_attempt (x : Fallible σ ε α) :
    outcome (attempt x) s = (.ok (outcome x s).1, (outcome x s).2) := rfl

theorem outcome_bind (x : Fallible σ ε α) (f : α → Fallible σ ε β) :
    outcome (x >>= f) s = match outcome x s with
      | (.ok a, t) => outcome (f a) t
      | (.error e, t) => (.error e, t) := by
  show (ExceptT.run (x >>= f)).run s = _
  rw [ExceptT.run_bind]
  show StateT.run (StateT.bind _ _) s = _
  unfold outcome StateT.bind StateT.run
  rcases h : ExceptT.run x s with ⟨_ | a, t⟩ <;> simp only [h] <;> rfl

theorem outcome_bind_ok {x : Fallible σ ε α} {f : α → Fallible σ ε β}
    (h : outcome x s = (.ok a, t)) : outcome (x >>= f) s = outcome (f a) t := by
  rw [outcome_bind, h]

theorem outcome_bind_error {x : Fallible σ ε α} {f : α → Fallible σ ε β}
    (h : outcome x s = (.error e, t)) : outcome (x >>= f) s = (.error e, t) := by
  rw [outcome_bind, h]

theorem outcome_bind_eq_ok {x : Fallible σ ε α} {f : α → Fallible σ ε β} :
    outcome (x >>= f) s = (.ok b, u) ↔
      ∃ a t, outcome x s = (.ok a, t) ∧ outcome (f a) t = (.ok b, u) := by
  rw [outcome_bind]
  rcases outcome x s with ⟨e | a, t⟩
  · simp
  · constructor
    · exact fun h => ⟨a, t, rfl, h⟩
    · rintro ⟨a', t', heq, h⟩
      cases heq
      exact h

end Fallible
