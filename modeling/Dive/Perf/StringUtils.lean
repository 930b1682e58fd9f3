import Dive.Lib.StringStream
import Dive.Lib.Text
import Mathlib.Data.List.DropRight

/-!
# Lines and fields of a CSV file

* `trim`, `getTrimmedLine`: a file is the lines that `std::getline` gives.
* `getTrimmedField`: one field of a line.
* `getTrimmedField_length_lt`: a field takes characters, so that the loops end.
* `readFields`, `readRecords`: the loops of the readers.
-/

namespace Dive.StringUtils

open Text (isSpace)

/-- `Trim`. -/
def trim (s : List Char) : List Char := (s.rdropWhile isSpace).dropWhile isSpace

/-! ## Lines -/

/-- The loop over a line that counts the quotes: two in a row are skipped. -/
def unescapedQuotes : List Char → ℕ
  | [] => 0
  | '"' :: '"' :: line => unescapedQuotes line
  | '"' :: line => unescapedQuotes line + 1
  | _ :: line => unescapedQuotes line

/-- Lines are appended as long as the number of quotes is odd. -/
def appendLines (line : List Char) (quotes : ℕ) :
    List (List Char) → Option (List Char × List (List Char))
  | [] => if quotes % 2 = 0 then some (trim line, []) else none
  | nextLine :: file =>
    if quotes % 2 = 0 then some (trim line, nextLine :: file)
    else appendLines (line ++ '\n' :: nextLine) (quotes + unescapedQuotes ('\n' :: nextLine)) file

/-- `GetTrimmedLine`, and what is left of the file. -/
def getTrimmedLine : List (List Char) → Option (List Char × List (List Char))
  | [] => none
  | line :: file => appendLines line (unescapedQuotes line) file

theorem appendLines_length_le {line : List Char} {quotes : ℕ} {file : List (List Char)}
    {result : List Char × List (List Char)} (h : appendLines line quotes file = some result) :
    result.2.length ≤ file.length := by
  induction file generalizing line quotes with
  | nil =>
    rw [appendLines] at h
    split_ifs at h
    cases h
    exact Nat.le_refl _
  | cons nextLine file ih =>
    rw [appendLines] at h
    split_ifs at h
    · cases h
      exact Nat.le_refl _
    · exact (ih h).trans (Nat.le_succ _)

theorem getTrimmedLine_length_lt {file : List (List Char)} {result : List Char × List (List Char)}
    (h : getTrimmedLine file = some result) : result.2.length < file.length := by
  cases file with
  | nil => cases h
  | cons line file => exact Nat.lt_succ_of_le (appendLines_length_le h)

/-! ## Fields -/

/-- The special case for an empty field right before the end. -/
def finalEmptyField (delimiter : Char) (ss : StringStream) : Bool × StringStream :=
  if ss.peek.1 = some delimiter then
    let ss := ss.peek.2.get.2
    if ss.peek.1 = none then (true, ss.peek.2) else (false, ss.peek.2.unget)
  else (false, ss.peek.2)

/-- Leading white space is eaten. -/
def eatSpace (ss : StringStream) : StringStream :=
  match _h : ss.peek.1 with
  | some c =>
    if isSpace c && c != '\n' then eatSpace ss.peek.2.get.2 else ss.peek.2
  | none => ss.peek.2
termination_by ss.ahead.length
decreasing_by
  obtain ⟨behind, ahead, rfl⟩ := StringStream.peek_eq_some _h
  exact Nat.lt_succ_self _

/-- The loop over the characters of a field. -/
def fieldLoop (delimiter : Char) (inQuotes : Bool) (field : List Char) (ss : StringStream) :
    List Char × StringStream :=
  match _h : ss.get.1 with
  | none => (field, ss.get.2)
  | some c =>
    let ss' := ss.get.2
    if inQuotes then
      if c = '"' then
        -- an escaped quote
        if ss'.peek.1 = some '"' then fieldLoop delimiter true (field ++ ['"']) ss'.peek.2.get.2
        else fieldLoop delimiter false field ss'.peek.2
      else fieldLoop delimiter true (field ++ [c]) ss'
    else if c = delimiter then
      -- the special case for an empty field right before the end
      (field, if ss'.peek.1 = none then ss'.peek.2.unget else ss'.peek.2)
    else fieldLoop delimiter false (field ++ [c]) ss'
termination_by ss.ahead.length
decreasing_by
  · refine (StringStream.length_get_le _).trans_lt ?_
    rw [StringStream.peek_ahead]
    exact StringStream.length_get_lt _h
  · rw [StringStream.peek_ahead]
    exact StringStream.length_get_lt _h
  · exact StringStream.length_get_lt _h
  · exact StringStream.length_get_lt _h

/-- A field behind the white space, with or without quotes. -/
def trimmedField (delimiter : Char) (ss : StringStream) : Option (List Char) × StringStream :=
  if ss.peek.1 = none then (none, ss.peek.2)
  else
    let result :=
      if ss.peek.1 = some '"' then fieldLoop delimiter true [] ss.peek.2.get.2
      else fieldLoop delimiter false [] ss.peek.2
    (some (trim result.1), result.2)

/-- `GetTrimmedField`; `none` is `false`. -/
def getTrimmedField (delimiter : Char) (ss : StringStream) : Option (List Char) × StringStream :=
  if (finalEmptyField delimiter ss).1 then (some [], (finalEmptyField delimiter ss).2)
  else trimmedField delimiter (eatSpace (finalEmptyField delimiter ss).2)

section Equations

variable {delimiter c : Char} {behind ahead field : List Char} {inQuotes : Bool}

theorem finalEmptyField_cons :
    finalEmptyField delimiter ⟨behind, c :: ahead, false, false⟩ =
      if c = delimiter ∧ ahead = [] then (true, ⟨c :: behind, [], true, false⟩)
      else (false, ⟨behind, c :: ahead, false, false⟩) := by
  rw [finalEmptyField]
  by_cases hc : c = delimiter
  · cases ahead <;> simp [hc]
  · simp [hc]

theorem getTrimmedField_cons :
    getTrimmedField delimiter ⟨behind, c :: ahead, false, false⟩ =
      if c = delimiter ∧ ahead = [] then (some [], ⟨c :: behind, [], true, false⟩)
      else trimmedField delimiter (eatSpace ⟨behind, c :: ahead, false, false⟩) := by
  rw [getTrimmedField, finalEmptyField_cons]
  by_cases h : c = delimiter ∧ ahead = []
  · rw [if_pos h, if_pos rfl, if_pos h]
  · rw [if_neg h, if_neg Bool.false_ne_true, if_neg h]

theorem eatSpace_cons : eatSpace ⟨behind, c :: ahead, false, false⟩ =
    if isSpace c && c != '\n' then eatSpace ⟨c :: behind, ahead, false, false⟩
    else ⟨behind, c :: ahead, false, false⟩ := by
  rw [eatSpace]
  rfl

theorem fieldLoop_nil : fieldLoop delimiter inQuotes field ⟨behind, [], false, false⟩ =
    (field, ⟨behind, [], true, true⟩) := by
  rw [fieldLoop]
  rfl

theorem fieldLoop_eof {fail : Bool} :
    fieldLoop delimiter inQuotes field ⟨behind, ahead, true, fail⟩ =
      (field, ⟨behind, ahead, true, true⟩) := by
  rw [fieldLoop]
  rfl

theorem trimmedField_cons : trimmedField delimiter ⟨behind, c :: ahead, false, false⟩ =
    let result :=
      if c = '"' then fieldLoop delimiter true [] ⟨c :: behind, ahead, false, false⟩
      else fieldLoop delimiter false [] ⟨behind, c :: ahead, false, false⟩
    (some (trim result.1), result.2) := by
  rw [trimmedField]
  simp

theorem fieldLoop_quoted (hc : c ≠ '"') :
    fieldLoop delimiter true field ⟨behind, c :: ahead, false, false⟩ =
      fieldLoop delimiter true (field ++ [c]) ⟨c :: behind, ahead, false, false⟩ := by
  rw [fieldLoop]
  simp [hc]

theorem fieldLoop_escaped :
    fieldLoop delimiter true field ⟨behind, '"' :: '"' :: ahead, false, false⟩ =
      fieldLoop delimiter true (field ++ ['"']) ⟨'"' :: '"' :: behind, ahead, false, false⟩ := by
  rw [fieldLoop]
  simp

theorem fieldLoop_endQuote (hc : c ≠ '"') :
    fieldLoop delimiter true field ⟨behind, '"' :: c :: ahead, false, false⟩ =
      fieldLoop delimiter false field ⟨'"' :: behind, c :: ahead, false, false⟩ := by
  rw [fieldLoop]
  simp [hc]

theorem fieldLoop_lastQuote :
    fieldLoop delimiter true field ⟨behind, ['"'], false, false⟩ =
      (field, ⟨'"' :: behind, [], true, true⟩) := by
  rw [fieldLoop]
  simp [fieldLoop_eof]

theorem fieldLoop_plain (hc : c ≠ delimiter) :
    fieldLoop delimiter false field ⟨behind, c :: ahead, false, false⟩ =
      fieldLoop delimiter false (field ++ [c]) ⟨c :: behind, ahead, false, false⟩ := by
  rw [fieldLoop]
  simp [hc]

theorem fieldLoop_delimiter :
    fieldLoop delimiter false field ⟨behind, delimiter :: ahead, false, false⟩ =
      (field, if ahead = [] then ⟨behind, [delimiter], false, false⟩
        else ⟨delimiter :: behind, ahead, false, false⟩) := by
  rw [fieldLoop]
  cases ahead <;> simp

end Equations

/-! ## A field takes characters -/

theorem eatSpace_ahead (ss : StringStream) :
    (eatSpace ss).ahead = ss.ahead ∨ (eatSpace ss).ahead.length < ss.ahead.length := by
  fun_induction eatSpace ss with
  | case1 ss c h hspace ih =>
    right
    obtain ⟨behind, ahead, rfl⟩ := StringStream.peek_eq_some h
    rcases ih with ih | ih
    · rw [ih]
      exact Nat.lt_succ_self _
    · exact ih.trans (Nat.lt_succ_self _)
  | case2 ss c h hspace => exact .inl (StringStream.peek_ahead ss)
  | case3 ss h => exact .inl (StringStream.peek_ahead ss)

theorem fieldLoop_length_le (delimiter : Char) (inQuotes : Bool) (field : List Char)
    (ss : StringStream) :
    (fieldLoop delimiter inQuotes field ss).2.ahead.length ≤ ss.ahead.length := by
  fun_induction fieldLoop delimiter inQuotes field ss with
  | case1 inQuotes field ss h => exact StringStream.length_get_le ss
  | case2 field ss ss' hpeek h ih =>
    have hget := StringStream.length_get_le ss'.peek.2
    rw [StringStream.peek_ahead] at hget
    exact ih.trans (hget.trans (StringStream.length_get_lt h).le)
  | case3 field ss ss' hpeek h ih =>
    rw [StringStream.peek_ahead] at ih
    exact ih.trans (StringStream.length_get_lt h).le
  | case4 field ss c h ss' hquote ih => exact ih.trans (StringStream.length_get_lt h).le
  | case5 inQuotes field ss ss' hquotes h =>
    obtain ⟨behind, ahead, rfl⟩ := StringStream.get_eq_some h
    cases ahead <;> simp [ss']
  | case6 inQuotes field ss c h ss' hquotes hdelimiter ih =>
    exact ih.trans (StringStream.length_get_lt h).le

theorem fieldLoop_length_lt {delimiter c : Char} {behind ahead : List Char}
    (h : ¬(c = delimiter ∧ ahead = [])) :
    (fieldLoop delimiter false [] ⟨behind, c :: ahead, false, false⟩).2.ahead.length <
      (c :: ahead).length := by
  by_cases hc : c = delimiter
  · subst hc
    rw [fieldLoop_delimiter, if_neg fun hahead => h ⟨rfl, hahead⟩]
    exact Nat.lt_succ_self _
  · rw [fieldLoop_plain hc]
    exact Nat.lt_succ_of_le (fieldLoop_length_le ..)

theorem eatSpace_of_peek {ss : StringStream} (h : ss.peek.1 = none) : eatSpace ss = ss.peek.2 := by
  rw [eatSpace]
  split
  · rename_i hsome
    exact absurd (h.symm.trans hsome) (Option.some_ne_none _).symm
  · rfl

theorem getTrimmedField_of_peek {delimiter : Char} {ss : StringStream} (h : ss.peek.1 = none) :
    (getTrimmedField delimiter ss).1 = none := by
  have hpeek : ss.peek.2.peek.1 = none ∧ ss.peek.2.peek.2.peek.1 = none := by
    cases ss with
    | mk behind ahead eof fail =>
      cases eof <;> cases fail <;> cases ahead <;> first
        | exact ⟨rfl, rfl⟩
        | exact absurd h (Option.some_ne_none _)
  have hfinal : finalEmptyField delimiter ss = (false, ss.peek.2) := by
    rw [finalEmptyField, h, if_neg (Option.some_ne_none _).symm]
  rw [getTrimmedField, hfinal, if_neg Bool.false_ne_true, eatSpace_of_peek hpeek.1, trimmedField,
    if_pos hpeek.2]

theorem trimmedField_length_le {delimiter : Char} {ss : StringStream} {field : List Char}
    (h : (trimmedField delimiter ss).1 = some field) :
    (trimmedField delimiter ss).2.ahead.length ≤ ss.ahead.length := by
  cases hpeek : ss.peek.1 with
  | none =>
    rw [trimmedField, if_pos hpeek] at h
    cases h
  | some c =>
    obtain ⟨behind, ahead, rfl⟩ := StringStream.peek_eq_some hpeek
    rw [trimmedField_cons]
    dsimp only
    split_ifs
    · exact (fieldLoop_length_le ..).trans (Nat.le_succ _)
    · exact fieldLoop_length_le ..

theorem trimmedField_length_lt {delimiter c : Char} {ahead field : List Char} {ss : StringStream}
    (hfinal : ¬(c = delimiter ∧ ahead = [])) (hahead : ss.ahead = c :: ahead)
    (h : (trimmedField delimiter ss).1 = some field) :
    (trimmedField delimiter ss).2.ahead.length < (c :: ahead).length := by
  cases hpeek : ss.peek.1 with
  | none =>
    rw [trimmedField, if_pos hpeek] at h
    cases h
  | some d =>
    obtain ⟨behind, rest, rfl⟩ := StringStream.peek_eq_some hpeek
    cases hahead
    rw [trimmedField_cons]
    dsimp only
    split_ifs
    · exact Nat.lt_succ_of_le (fieldLoop_length_le ..)
    · exact fieldLoop_length_lt hfinal

/-- **Fields take characters**, until nothing is left. -/
theorem getTrimmedField_length_lt {delimiter : Char} {ss : StringStream} {field : List Char}
    (h : (getTrimmedField delimiter ss).1 = some field) :
    (getTrimmedField delimiter ss).2.ahead.length < ss.ahead.length := by
  cases hpeek : ss.peek.1 with
  | none => exact absurd ((getTrimmedField_of_peek hpeek).symm.trans h) (Option.some_ne_none _).symm
  | some c =>
    obtain ⟨behind, ahead, rfl⟩ := StringStream.peek_eq_some hpeek
    rw [getTrimmedField_cons] at h ⊢
    split_ifs at h ⊢ with hfinal
    · exact Nat.lt_succ_of_le (Nat.zero_le _)
    · rcases eatSpace_ahead ⟨behind, c :: ahead, false, false⟩ with hspace | hspace
      · exact trimmedField_length_lt hfinal hspace h
      · exact (trimmedField_length_le h).trans_lt hspace

/-- The fields of a line: the loop of the readers. -/
def readFields (delimiter : Char) (ss : StringStream) : List (List Char) :=
  match _h : (getTrimmedField delimiter ss).1 with
  | some field => field :: readFields delimiter (getTrimmedField delimiter ss).2
  | none => []
termination_by ss.ahead.length
decreasing_by exact getTrimmedField_length_lt _h

/-- The records of a file: the loop of `LoadFromCsv`. -/
def readRecords (file : List (List Char)) : List (List (List Char)) :=
  match _h : getTrimmedLine file with
  | some (line, rest) => readFields ',' (StringStream.ofString line) :: readRecords rest
  | none => []
termination_by file.length
decreasing_by exact getTrimmedLine_length_lt _h

end Dive.StringUtils
