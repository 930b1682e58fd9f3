import Mathlib.Order.Basic

/-!
# Input from a string

* `StringStream`: the characters behind and ahead of the position, and the flags.
* `peek`, `get`, `unget`: unformatted input; `none` is the end of the file.
* `get_eq_some`, `peek_eq_some`: a character comes from a stream that is good.
* `length_get_lt`, `peek_ahead`: what is ahead after a step.
-/

namespace Dive

/-- `std::stringstream`, read from. -/
structure StringStream where
  /-- What has been read, last first. -/
  behind : List Char
  ahead : List Char
  eof : Bool
  fail : Bool
  deriving DecidableEq

namespace StringStream

def ofString (s : List Char) : StringStream := ⟨[], s, false, false⟩

variable (ss : StringStream)

def good : Bool := !ss.eof && !ss.fail

/-- A character that stays ahead. -/
def peek : Option Char × StringStream :=
  if ss.good then
    match ss.ahead with
    | [] => (none, { ss with eof := true })
    | c :: _ => (some c, ss)
  else (none, { ss with fail := true })

/-- The next character. -/
def get : Option Char × StringStream :=
  if ss.good then
    match ss.ahead with
    | [] => (none, { ss with eof := true, fail := true })
    | c :: ahead => (some c, { ss with behind := c :: ss.behind, ahead })
  else (none, { ss with fail := true })

/-- The position before the last character; the end of the file is forgotten first. -/
def unget : StringStream :=
  if ss.fail then { ss with eof := false }
  else
    match ss.behind with
    | [] => { ss with eof := false, fail := true }
    | c :: behind => { ss with behind, ahead := c :: ss.ahead, eof := false }

section Equations

variable (behind ahead : List Char) (c : Char)

@[simp] theorem peek_cons : peek ⟨behind, c :: ahead, false, false⟩ =
    (some c, ⟨behind, c :: ahead, false, false⟩) := rfl

@[simp] theorem peek_nil : peek ⟨behind, [], false, false⟩ =
    (none, ⟨behind, [], true, false⟩) := rfl

@[simp] theorem peek_eof (fail : Bool) : peek ⟨behind, ahead, true, fail⟩ =
    (none, ⟨behind, ahead, true, true⟩) := rfl

@[simp] theorem get_cons : get ⟨behind, c :: ahead, false, false⟩ =
    (some c, ⟨c :: behind, ahead, false, false⟩) := rfl

@[simp] theorem get_nil : get ⟨behind, [], false, false⟩ =
    (none, ⟨behind, [], true, true⟩) := rfl

@[simp] theorem get_eof (fail : Bool) : get ⟨behind, ahead, true, fail⟩ =
    (none, ⟨behind, ahead, true, true⟩) := rfl

@[simp] theorem unget_cons (eof : Bool) : unget ⟨c :: behind, ahead, eof, false⟩ =
    ⟨behind, c :: ahead, false, false⟩ := rfl

end Equations

@[simp] theorem peek_ahead : ss.peek.2.ahead = ss.ahead := by
  cases ss with
  | mk behind ahead eof fail => cases eof <;> cases fail <;> cases ahead <;> rfl

variable {ss} {c : Char}

theorem get_eq_some (h : ss.get.1 = some c) :
    ∃ behind ahead, ss = ⟨behind, c :: ahead, false, false⟩ := by
  cases ss with
  | mk behind ahead eof fail =>
    cases eof <;> cases fail <;> cases ahead <;> cases h
    exact ⟨_, _, rfl⟩

theorem peek_eq_some (h : ss.peek.1 = some c) :
    ∃ behind ahead, ss = ⟨behind, c :: ahead, false, false⟩ := by
  cases ss with
  | mk behind ahead eof fail =>
    cases eof <;> cases fail <;> cases ahead <;> cases h
    exact ⟨_, _, rfl⟩

theorem length_get_lt (h : ss.get.1 = some c) : ss.get.2.ahead.length < ss.ahead.length := by
  obtain ⟨behind, ahead, rfl⟩ := get_eq_some h
  exact Nat.lt_succ_self _

theorem length_get_le (ss : StringStream) : ss.get.2.ahead.length ≤ ss.ahead.length := by
  cases ss with
  | mk behind ahead eof fail =>
    cases eof <;> cases fail <;> cases ahead <;> first
      | exact Nat.le_refl _
      | exact Nat.le_succ _

end StringStream

end Dive
