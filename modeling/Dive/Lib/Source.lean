import Mathlib.Data.Int.Notation
import Mathlib.Data.List.Basic
import Mathlib.Order.Nat

/-!
# Sources with short reads and errors

* `Source`: what a stream hands out over time: chunks of any length, errors between them that a
  later call may get past, and a last answer that repeats.
* `Source.pull`: one call, which yields at most one chunk.
* `Source.items`, `Source.stop`: the items up to the first error or the end, and which of the two
  it is. They alone describe a call, whatever the chunks are (**`pull_of_items_ne_nil`**).
* `Source.contents`: the items before and behind the errors; a call takes them in order.
-/

/-- What a stream yields next: some items, or a negative code. -/
inductive Segment (α : Type*)
  | data (first : α) (others : List α)
  | error (code : ℕ)
  deriving DecidableEq

/-- A stream. After the last segment it is at its end, or fails for ever with the code `ending`. -/
structure Source (α : Type*) where
  segments : List (Segment α)
  ending : Option ℕ := none
  deriving DecidableEq

/-- The outcome of a read: the count or negative code, what was written, and the rest. -/
structure Transfer (α : Type*) where
  returned : ℤ
  items : List α
  rest : Source α
  deriving DecidableEq

namespace Source

variable {α : Type*}

/-- The number that a call returns for an error. -/
def errorCode (code : ℕ) : ℤ := Int.negSucc code

/-- One call for at most `n` items. -/
def pull (s : Source α) (n : ℕ) : Transfer α :=
  match s.segments with
  | [] => ⟨s.ending.elim 0 errorCode, [], s⟩
  | .error code :: segments => ⟨errorCode code, [], { s with segments := segments }⟩
  | .data b bs :: segments =>
    match (b :: bs).drop n with
    | [] => ⟨(b :: bs).length, b :: bs, { s with segments := segments }⟩
    | c :: cs => ⟨n, (b :: bs).take n, { s with segments := .data c cs :: segments }⟩

/-- The items before the first error. -/
def itemsOf : List (Segment α) → List α
  | [] => []
  | .data b bs :: segments => b :: bs ++ itemsOf segments
  | .error _ :: _ => []

/-- The first error, or what follows the segments. -/
def stopOf (ending : Option ℕ) : List (Segment α) → Option ℕ
  | [] => ending
  | .data _ _ :: segments => stopOf ending segments
  | .error code :: _ => some code

/-- The number of items in the segments. -/
def countOf : List (Segment α) → ℕ
  | [] => 0
  | .data _ bs :: segments => bs.length + 1 + countOf segments
  | .error _ :: segments => countOf segments

/-- The items of the segments. -/
def contentsOf : List (Segment α) → List α
  | [] => []
  | .data b bs :: segments => b :: bs ++ contentsOf segments
  | .error _ :: segments => contentsOf segments

/-- The items handed out before an error or the end. -/
def items (s : Source α) : List α := itemsOf s.segments

/-- The error that follows these items; `none` if it is the end. -/
def stop (s : Source α) : Option ℕ := stopOf s.ending s.segments

/-- All the items that the source may still hand out. -/
def size (s : Source α) : ℕ := countOf s.segments

/-- All the items, in the order in which they are handed out. -/
def contents (s : Source α) : List α := contentsOf s.segments

/-- The source of the items, in one chunk. -/
def ofList : List α → Source α
  | [] => ⟨[], none⟩
  | b :: bs => ⟨[.data b bs], none⟩

@[simp] theorem items_ofList (l : List α) : (ofList l).items = l := by
  cases l <;> simp [ofList, items, itemsOf]

@[simp] theorem stop_ofList (l : List α) : (ofList l).stop = none := by
  cases l <;> rfl

@[simp] theorem contents_ofList (l : List α) : (ofList l).contents = l := by
  cases l <;> simp [ofList, contents, contentsOf]

theorem contentsOf_append : ∀ l l' : List (Segment α),
    contentsOf (l ++ l') = contentsOf l ++ contentsOf l'
  | [], _ => rfl
  | .data b bs :: l, l' => by
    rw [List.cons_append, contentsOf, contentsOf, contentsOf_append l l', List.append_assoc]
  | .error _ :: l, l' => contentsOf_append l l'

theorem errorCode_lt (code : ℕ) : errorCode code < 0 := Int.negSucc_lt_zero code

theorem not_errorCode_nonneg (code : ℕ) : ¬ 0 ≤ errorCode code := Int.not_le.mpr (errorCode_lt code)

variable {s : Source α} {n : ℕ}

theorem pull_of_items_nil (h : s.items = []) :
    (s.pull n).returned = s.stop.elim 0 errorCode ∧ (s.pull n).items = [] ∧
      (s.pull n).rest.size = s.size ∧ (s.stop = none → (s.pull n).rest = s) := by
  obtain ⟨segments, ending⟩ := s
  match segments with
  | [] => exact ⟨rfl, rfl, rfl, fun _ => rfl⟩
  | .error code :: segments =>
    refine ⟨rfl, rfl, rfl, fun hstop => ?_⟩
    cases hstop
  | .data b bs :: segments => cases h

/-- **A call before the end** hands out a nonempty prefix of what is left. -/
theorem pull_of_items_ne_nil (h : s.items ≠ []) (hn : 0 < n) :
    ∃ k, 0 < k ∧ k ≤ n ∧ k ≤ s.items.length ∧ (s.pull n).returned = k ∧
      (s.pull n).items = s.items.take k ∧ (s.pull n).rest.items = s.items.drop k ∧
      (s.pull n).rest.stop = s.stop ∧ (s.pull n).rest.size + k = s.size := by
  obtain ⟨segments, ending⟩ := s
  match segments with
  | [] => exact absurd rfl h
  | .error code :: segments => exact absurd rfl h
  | .data b bs :: segments =>
    have hitems : (⟨.data b bs :: segments, ending⟩ : Source α).items =
        (b :: bs) ++ itemsOf segments := rfl
    rw [hitems]
    cases hd : (b :: bs).drop n with
    | nil =>
      have hlen : (b :: bs).length ≤ n := List.drop_eq_nil_iff.mp hd
      have hp : (⟨.data b bs :: segments, ending⟩ : Source α).pull n =
          ⟨(b :: bs).length, b :: bs, ⟨segments, ending⟩⟩ := by
        simp only [pull, hd]
      rw [hp]
      refine ⟨(b :: bs).length, Nat.succ_pos _, hlen, ?_, rfl, ?_, ?_, rfl, ?_⟩
      · rw [List.length_append]
        omega
      · rw [List.take_left]
      · rw [List.drop_left]
        rfl
      · simp only [size, countOf, List.length_cons]
        omega
    | cons c cs =>
      have hlen : n < (b :: bs).length := by
        rw [← not_le]
        intro hle
        rw [List.drop_eq_nil_of_le hle] at hd
        cases hd
      have hp : (⟨.data b bs :: segments, ending⟩ : Source α).pull n =
          ⟨n, (b :: bs).take n, ⟨.data c cs :: segments, ending⟩⟩ := by
        simp only [pull, hd]
      rw [hp]
      refine ⟨n, hn, le_refl n, ?_, rfl, ?_, ?_, rfl, ?_⟩
      · rw [List.length_append]
        omega
      · rw [List.take_append_of_le_length hlen.le]
      · rw [List.drop_append_of_le_length hlen.le, hd]
        rfl
      · have hcs : (c :: cs).length = (b :: bs).length - n := by rw [← hd, List.length_drop]
        simp only [size, countOf, List.length_cons] at hcs hlen ⊢
        omega

theorem contents_pull : s.contents = (s.pull n).items ++ (s.pull n).rest.contents ∧
    (s.pull n).items.length ≤ n ∧
    (0 ≤ (s.pull n).returned → (s.pull n).returned = (s.pull n).items.length) := by
  obtain ⟨segments, ending⟩ := s
  match segments with
  | [] =>
    refine ⟨rfl, Nat.zero_le n, fun h => ?_⟩
    cases ending with
    | none => rfl
    | some code => exact absurd h (not_errorCode_nonneg code)
  | .error code :: segments =>
    exact ⟨rfl, Nat.zero_le n, fun h => absurd h (not_errorCode_nonneg code)⟩
  | .data b bs :: segments =>
    cases hd : (b :: bs).drop n with
    | nil =>
      simp only [pull, hd, implies_true, and_true]
      exact ⟨rfl, List.drop_eq_nil_iff.mp hd⟩
    | cons c cs =>
      have hlen : n ≤ (b :: bs).length := by
        by_contra hlt
        rw [List.drop_eq_nil_of_le (by omega)] at hd
        cases hd
      simp only [pull, hd, List.length_take, min_eq_left hlen, le_refl, implies_true, and_true]
      show b :: bs ++ contentsOf segments = _ ++ (c :: cs ++ contentsOf segments)
      rw [← List.append_assoc, ← hd, List.take_append_drop]

end Source
