import Dive.Perf.StringUtils

/-!
# Records that are written and read back

* `CsvField`, `CsvRecord`: fields without white space around them, in quotes where they have to be;
  `fileText`: one record per line.
* `quoteState`: whether a position is inside of quotes.
* `getTrimmedLine_append`: a line whose newlines are all inside is read as a whole.
* `readFields_recordText`: the fields of a line; two empty fields at its end are read as one.
* **`readRecords_fileText_iff`**: the records are read back exactly when none ends with two empty
  fields.
-/

namespace Dive.StringUtils

open Text (isSpace getlines)

/-! ## What is written -/

/-- A field as it is written: without white space around it, in quotes if it has to be. -/
structure CsvField where
  text : List Char
  inQuotes : Bool
  head_notSpace : ∀ c ∈ text.head?, isSpace c = false
  last_notSpace : ∀ c ∈ text.getLast?, isSpace c = false
  inQuotes_of_mem : ',' ∈ text ∨ '"' ∈ text ∨ '\n' ∈ text → inQuotes = true

/-- Inner quotes are doubled. -/
def escape (text : List Char) : List Char :=
  text.flatMap fun c => if c = '"' then ['"', '"'] else [c]

def CsvField.written (f : CsvField) : List Char :=
  if f.inQuotes then '"' :: (escape f.text ++ ['"']) else f.text

/-- The fields of a record, joined with commas. -/
def recordText : List CsvField → List Char
  | [] => []
  | [f] => f.written
  | f :: g :: fields => f.written ++ ',' :: recordText (g :: fields)

structure CsvRecord where
  fields : List CsvField
  two_le : 2 ≤ fields.length

/-- The fields without their quotes. -/
def CsvRecord.texts (r : CsvRecord) : List (List Char) := r.fields.map CsvField.text

/-- One record per line. -/
def fileText (records : List CsvRecord) : List Char :=
  records.flatMap fun r => recordText r.fields ++ ['\n']

/-- The last two fields are empty, and written without quotes. -/
def endsEmpty : List CsvField → Bool
  | [] => false
  | [_] => false
  | [f, g] => f.written.isEmpty && g.written.isEmpty
  | _ :: fields => endsEmpty fields

/-! ## Lines -/

/-- Whether the end of a text is inside of quotes; `none` if a newline was outside. -/
def quoteState : Bool → List Char → Option Bool
  | inside, [] => some inside
  | inside, c :: l =>
    if c = '"' then quoteState (!inside) l
    else if c = '\n' ∧ inside = false then none
    else quoteState inside l

theorem quoteState_append (inside : Bool) (a l : List Char) :
    quoteState inside (a ++ l) = (quoteState inside a).bind fun inside => quoteState inside l := by
  induction a generalizing inside with
  | nil => rfl
  | cons c a ih =>
    rw [List.cons_append, quoteState, quoteState]
    split_ifs
    · exact ih _
    · rfl
    · exact ih _

theorem quoteState_escape (text : List Char) : quoteState true (escape text) = some true := by
  induction text with
  | nil => rfl
  | cons c text ih =>
    rw [escape, List.flatMap_cons, ← escape, quoteState_append]
    by_cases hc : c = '"'
    · rw [if_pos hc]
      exact ih
    · rw [if_neg hc, quoteState, if_neg hc, if_neg fun h => Bool.false_ne_true h.2.symm]
      exact ih

theorem quoteState_of_notMem {inside : Bool} {l : List Char} (hquote : '"' ∉ l) (hline : '\n' ∉ l) :
    quoteState inside l = some inside := by
  induction l with
  | nil => rfl
  | cons c l ih =>
    rw [List.mem_cons, not_or] at hquote hline
    rw [quoteState, if_neg (Ne.symm hquote.1), if_neg fun h => hline.1 h.1.symm,
      ih hquote.2 hline.2]

theorem CsvField.quoteState_written (f : CsvField) : quoteState false f.written = some false := by
  rw [CsvField.written]
  split_ifs with h
  · rw [quoteState, if_pos rfl, quoteState_append, Bool.not_false, quoteState_escape]
    rfl
  · exact quoteState_of_notMem (fun hmem => h (f.inQuotes_of_mem (.inr (.inl hmem))))
      fun hmem => h (f.inQuotes_of_mem (.inr (.inr hmem)))

theorem quoteState_recordText (fields : List CsvField) :
    quoteState false (recordText fields) = some false := by
  induction fields using recordText.induct with
  | case1 => rfl
  | case2 f => exact f.quoteState_written
  | case3 f g fields ih =>
    rw [recordText, quoteState_append, f.quoteState_written]
    exact ih

theorem unescapedQuotes_mod_two (l : List Char) : unescapedQuotes l % 2 = l.count '"' % 2 := by
  fun_induction unescapedQuotes l with
  | case1 => rfl
  | case2 l ih =>
    rw [List.count_cons_self, List.count_cons_self]
    omega
  | case3 l h ih =>
    rw [List.count_cons_self]
    omega
  | case4 l c hescaped hquote ih =>
    rw [List.count_cons_of_ne hquote]
    exact ih

theorem quoteState_eq_some {inside inside' : Bool} {l : List Char} (hline : '\n' ∉ l)
    (h : quoteState inside l = some inside') :
    (inside.toNat + unescapedQuotes l) % 2 = inside'.toNat := by
  rw [Nat.add_mod, unescapedQuotes_mod_two, ← Nat.add_mod]
  induction l generalizing inside with
  | nil =>
    cases h
    cases inside' <;> rfl
  | cons c l ih =>
    rw [List.mem_cons, not_or] at hline
    rw [quoteState] at h
    split_ifs at h with hquote hnewline
    · have := ih hline.2 h
      subst hquote
      rw [List.count_cons_self]
      cases inside <;> simp only [Bool.not_false, Bool.not_true, Bool.toNat_true,
        Bool.toNat_false] at this ⊢ <;> omega
    · rw [List.count_cons_of_ne hquote]
      exact ih hline.2 h

theorem appendLines_of_even {line : List Char} {quotes : ℕ} (h : quotes % 2 = 0)
    (file : List (List Char)) : appendLines line quotes file = some (trim line, file) := by
  cases file <;> rw [appendLines, if_pos h]

theorem appendLines_getlines (rest : List Char) (s : List Char) (inside : Bool) (line : List Char)
    (quotes : ℕ) (hquotes : quotes % 2 = inside.toNat) (h : quoteState inside s = some false) :
    ∃ piece file, getlines '\n' (s ++ '\n' :: rest) = piece :: file ∧
      appendLines (line ++ piece) (quotes + unescapedQuotes piece) file =
        some (trim (line ++ s), getlines '\n' rest) := by
  induction hn : s.length using Nat.strong_induction_on generalizing s inside line quotes with
  | h n ih =>
    by_cases hmem : '\n' ∈ s
    · -- the first newline is inside
      obtain ⟨piece, s', rfl, hpiece⟩ := List.eq_append_cons_of_mem hmem
      rw [quoteState_append] at h
      obtain ⟨inside', hinside, hs'⟩ := Option.bind_eq_some_iff.mp h
      rw [quoteState, if_neg (by decide)] at hs'
      split_ifs at hs' with hnewline
      rw [eq_self, true_and, Bool.not_eq_false] at hnewline
      subst hnewline
      have hodd := quoteState_eq_some hpiece hinside
      rw [Bool.toNat_true] at hodd
      have hparity : (quotes + unescapedQuotes piece) % 2 = 1 := by omega
      obtain ⟨next, file, hfile, hnext⟩ := ih s'.length
        (by rw [← hn, List.length_append, List.length_cons]; omega) s' true (line ++ piece ++ ['\n'])
        (quotes + unescapedQuotes piece) hparity hs' rfl
      refine ⟨piece, next :: file, ?_, ?_⟩
      · rw [List.append_assoc, List.cons_append, Text.getlines_append _ hpiece, hfile]
      · have hskip : unescapedQuotes ('\n' :: next) = unescapedQuotes next := rfl
        rw [appendLines, if_neg (by omega), hskip, List.append_cons, hnext, List.append_assoc,
          List.append_assoc, List.singleton_append]
    · have heven := quoteState_eq_some hmem h
      rw [Bool.toNat_false] at heven
      exact ⟨s, getlines '\n' rest, Text.getlines_append _ hmem rest,
        appendLines_of_even (by omega) _⟩

/-- **A line whose newlines are inside of quotes** is read as a whole. -/
theorem getTrimmedLine_append {s : List Char} (h : quoteState false s = some false)
    (rest : List Char) :
    getTrimmedLine (getlines '\n' (s ++ '\n' :: rest)) = some (trim s, getlines '\n' rest) := by
  obtain ⟨piece, file, hfile, happend⟩ := appendLines_getlines rest s false [] 0 rfl h
  rw [List.nil_append, Nat.zero_add, List.nil_append] at happend
  rw [hfile, getTrimmedLine, happend]

/-! ## White space -/

theorem trim_eq_self {s : List Char} (hhead : ∀ c ∈ s.head?, isSpace c = false)
    (hlast : ∀ c ∈ s.getLast?, isSpace c = false) : trim s = s := by
  have hright : s.rdropWhile isSpace = s := List.rdropWhile_eq_self_iff.mpr fun hne hspace =>
    Bool.false_ne_true ((hlast _ (List.getLast_mem_getLast? hne)).symm.trans hspace)
  rw [trim, hright]
  cases s with
  | nil => rfl
  | cons c s =>
    rw [List.dropWhile_cons, hhead c rfl, if_neg Bool.false_ne_true]

theorem CsvField.trim_text (f : CsvField) : trim f.text = f.text :=
  trim_eq_self f.head_notSpace f.last_notSpace

theorem CsvField.head_written (f : CsvField) : ∀ c ∈ f.written.head?, isSpace c = false := by
  rw [CsvField.written]
  split_ifs
  · intro c hc
    cases hc
    decide
  · exact f.head_notSpace

theorem CsvField.last_written (f : CsvField) : ∀ c ∈ f.written.getLast?, isSpace c = false := by
  rw [CsvField.written]
  split_ifs
  · intro c hc
    rw [← List.cons_append, List.getLast?_concat] at hc
    cases hc
    decide
  · exact f.last_notSpace

theorem last_recordText (fields : List CsvField) :
    ∀ c ∈ (recordText fields).getLast?, isSpace c = false := by
  induction fields using recordText.induct with
  | case1 => exact fun c hc => absurd hc (Option.not_mem_none c)
  | case2 f => exact f.last_written
  | case3 f g fields ih =>
    intro c hc
    rw [recordText, List.getLast?_append_of_ne_nil _ (List.cons_ne_nil _ _),
      List.getLast?_cons] at hc
    cases hrest : (recordText (g :: fields)).getLast? with
    | none =>
      rw [hrest] at hc
      cases hc
      decide
    | some d =>
      rw [hrest] at hc
      cases hc
      exact ih _ hrest

theorem trim_recordText {fields : List CsvField} (h : 2 ≤ fields.length) :
    trim (recordText fields) = recordText fields := by
  refine trim_eq_self ?_ (last_recordText fields)
  rcases fields with _ | ⟨f, _ | ⟨g, fields⟩⟩
  · exact absurd h (Nat.not_succ_le_zero _)
  · exact absurd h (Nat.lt_irrefl _)
  · intro c hc
    rw [recordText, List.head?_append] at hc
    cases hhead : f.written.head? with
    | none =>
      rw [hhead] at hc
      cases hc
      decide
    | some d =>
      rw [hhead] at hc
      cases hc
      exact f.head_written _ hhead

theorem CsvRecord.recordText_ne_nil (r : CsvRecord) : recordText r.fields ≠ [] := by
  have h := r.two_le
  cases hfields : r.fields with
  | nil =>
    rw [hfields] at h
    exact absurd h (Nat.not_succ_le_zero _)
  | cons f fields =>
    cases fields with
    | nil =>
      rw [hfields] at h
      exact absurd h (Nat.lt_irrefl _)
    | cons g fields => exact List.append_ne_nil_of_right_ne_nil _ (List.cons_ne_nil _ _)

/-! ## Fields -/

section Fields

variable {behind rest acc : List Char}

theorem fieldLoop_text {text : List Char} (h : ',' ∉ text) :
    fieldLoop ',' false acc ⟨behind, text ++ rest, false, false⟩ =
      fieldLoop ',' false (acc ++ text) ⟨text.reverse ++ behind, rest, false, false⟩ := by
  induction text generalizing acc behind with
  | nil => simp
  | cons c text ih =>
    rw [List.mem_cons, not_or] at h
    rw [List.cons_append, fieldLoop_plain (Ne.symm h.1), ih h.2]
    simp

theorem fieldLoop_escape (text : List Char) :
    fieldLoop ',' true acc ⟨behind, escape text ++ rest, false, false⟩ =
      fieldLoop ',' true (acc ++ text) ⟨(escape text).reverse ++ behind, rest, false, false⟩ := by
  induction text generalizing acc behind with
  | nil => simp [escape]
  | cons c text ih =>
    rw [escape, List.flatMap_cons, ← escape]
    by_cases hc : c = '"'
    · subst hc
      rw [if_pos rfl, List.cons_append, List.cons_append, List.cons_append, List.cons_append,
        List.nil_append, fieldLoop_escaped, ih]
      simp
    · rw [if_neg hc, List.singleton_append, List.cons_append, fieldLoop_quoted hc, ih]
      simp

/-- What may follow a field. -/
def AfterField (rest : List Char) : Prop := rest = [] ∨ ∃ l, rest = ',' :: l

/-- **A field as it is written.** -/
theorem CsvField.trimmedField_written (f : CsvField) (behind : List Char) (hrest : AfterField rest)
    (hne : f.written ++ rest ≠ []) :
    ∃ behind', trimmedField ',' (eatSpace ⟨behind, f.written ++ rest, false, false⟩) =
      (some (trim (fieldLoop ',' false f.text ⟨behind', rest, false, false⟩).1),
        (fieldLoop ',' false f.text ⟨behind', rest, false, false⟩).2) := by
  cases hquotes : f.inQuotes with
  | true =>
    rw [CsvField.written, if_pos hquotes, List.cons_append, List.append_assoc,
      List.singleton_append, eatSpace_cons, if_neg (by decide), trimmedField_cons]
    dsimp only
    rw [if_pos rfl, fieldLoop_escape, List.nil_append]
    rcases hrest with rfl | ⟨l, rfl⟩
    · exact ⟨_, by rw [fieldLoop_lastQuote, fieldLoop_nil]⟩
    · exact ⟨_, by rw [fieldLoop_endQuote (by decide)]⟩
  | false =>
    have hnot := fun h => Bool.false_ne_true (hquotes.symm.trans (f.inQuotes_of_mem h))
    have hcomma : ',' ∉ f.text := fun h => hnot (.inl h)
    rw [CsvField.written, hquotes, if_neg Bool.false_ne_true] at hne ⊢
    cases htext : f.text with
    | nil =>
      -- an empty field in front of a comma
      rw [htext] at hne
      obtain ⟨l, rfl⟩ := hrest.resolve_left hne
      refine ⟨behind, ?_⟩
      rw [List.nil_append, eatSpace_cons, if_neg (by decide), trimmedField_cons]
      rfl
    | cons c text =>
      have hspace : isSpace c = false := f.head_notSpace c (by rw [htext]; rfl)
      have hquote : c ≠ '"' := fun hc => hnot (.inr (.inl (by
        rw [htext, hc]
        exact List.mem_cons_self)))
      rw [List.cons_append, eatSpace_cons, hspace, Bool.false_and, if_neg Bool.false_ne_true,
        trimmedField_cons]
      dsimp only
      rw [htext] at hcomma
      rw [if_neg hquote, ← List.cons_append, fieldLoop_text hcomma]
      exact ⟨_, rfl⟩

theorem CsvField.head_ne_comma (f : CsvField) {c : Char} {l : List Char} (h : f.written = c :: l) :
    c ≠ ',' := by
  rintro rfl
  rw [CsvField.written] at h
  split_ifs at h with hquotes
  · exact absurd (List.cons.inj h).1 (by decide)
  · exact hquotes (f.inQuotes_of_mem (.inl (h ▸ List.mem_cons_self)))

theorem CsvField.text_of_written (f : CsvField) (h : f.written = []) : f.text = [] := by
  rw [CsvField.written] at h
  split_ifs at h
  exact h

theorem CsvField.getTrimmedField_eq (f : CsvField) (behind : List Char) (hne : f.written ++ rest ≠ [])
    (h : f.written = [] → rest ≠ [',']) :
    getTrimmedField ',' ⟨behind, f.written ++ rest, false, false⟩ =
      trimmedField ',' (eatSpace ⟨behind, f.written ++ rest, false, false⟩) := by
  cases hwritten : f.written with
  | nil =>
    rw [hwritten] at hne
    obtain ⟨c, l, rfl⟩ := List.exists_cons_of_ne_nil hne
    rw [List.nil_append, getTrimmedField_cons, if_neg]
    rintro ⟨rfl, rfl⟩
    exact h hwritten rfl
  | cons c l =>
    rw [List.cons_append, getTrimmedField_cons, if_neg fun hc => f.head_ne_comma hwritten hc.1]

theorem CsvField.getTrimmedField_comma (f : CsvField) (behind rest : List Char) :
    ∃ behind', getTrimmedField ',' ⟨behind, f.written ++ ',' :: rest, false, false⟩ =
      (some f.text,
        if rest = [] then
          if f.written = [] then ⟨behind', [], true, false⟩ else ⟨behind', [','], false, false⟩
        else ⟨behind', rest, false, false⟩) := by
  by_cases hfinal : f.written = [] ∧ rest = []
  · rw [hfinal.1, hfinal.2, List.nil_append, getTrimmedField_cons, if_pos ⟨rfl, rfl⟩,
      f.text_of_written hfinal.1]
    exact ⟨_, rfl⟩
  · have hne : f.written ++ ',' :: rest ≠ [] := List.append_ne_nil_of_right_ne_nil _ (by simp)
    obtain ⟨behind', hfield⟩ := f.trimmedField_written behind (.inr ⟨rest, rfl⟩) hne
    rw [f.getTrimmedField_eq behind hne fun hwritten hrest => hfinal ⟨hwritten, (List.cons.inj hrest).2⟩,
      hfield, fieldLoop_delimiter, f.trim_text]
    by_cases hrest : rest = []
    · exact ⟨behind', by rw [if_pos hrest, if_pos hrest, if_neg fun h => hfinal ⟨h, hrest⟩]⟩
    · exact ⟨_, by rw [if_neg hrest, if_neg hrest]⟩

theorem CsvField.getTrimmedField_last (f : CsvField) (behind : List Char) (hne : f.written ≠ []) :
    ∃ behind', getTrimmedField ',' ⟨behind, f.written, false, false⟩ =
      (some f.text, ⟨behind', [], true, true⟩) := by
  have happend : f.written ++ [] ≠ [] := by rwa [List.append_nil]
  obtain ⟨behind', hfield⟩ := f.trimmedField_written behind (.inl rfl) happend
  have heq := f.getTrimmedField_eq behind happend fun hwritten => absurd hwritten hne
  rw [List.append_nil] at hfield heq
  rw [heq, hfield, fieldLoop_nil, f.trim_text]
  exact ⟨behind', rfl⟩

theorem readFields_of_some {delimiter : Char} {ss ss' : StringStream} {field : List Char}
    (h : getTrimmedField delimiter ss = (some field, ss')) :
    readFields delimiter ss = field :: readFields delimiter ss' := by
  rw [readFields]
  split
  · rename_i hfield
    rw [h] at hfield
    cases hfield
    rw [h]
  · rename_i hfield
    rw [h] at hfield
    cases hfield

theorem readFields_of_peek {delimiter : Char} {ss : StringStream} (h : ss.peek.1 = none) :
    readFields delimiter ss = [] := by
  rw [readFields]
  split
  · rename_i hfield
    exact absurd ((getTrimmedField_of_peek h).symm.trans hfield) (Option.some_ne_none _).symm
  · rfl

theorem recordText_cons_cons_ne_nil (f g : CsvField) (fields : List CsvField) :
    recordText (f :: g :: fields) ≠ [] :=
  List.append_ne_nil_of_right_ne_nil _ (List.cons_ne_nil _ _)

/-- What is read of the fields of a record. -/
def fieldsRead (fields : List CsvField) : List (List Char) :=
  if endsEmpty fields then (fields.map CsvField.text).dropLast else fields.map CsvField.text

/-- **The fields of a line.** -/
theorem readFields_recordText (fields : List CsvField) (hne : recordText fields ≠ []) :
    readFields ',' ⟨behind, recordText fields, false, false⟩ = fieldsRead fields := by
  induction fields using recordText.induct generalizing behind with
  | case1 => exact absurd rfl hne
  | case2 f =>
    obtain ⟨behind', hlast⟩ := f.getTrimmedField_last behind hne
    rw [recordText, readFields_of_some hlast, readFields_of_peek rfl]
    rfl
  | case3 f g fields ih =>
    obtain ⟨behind', hfield⟩ := f.getTrimmedField_comma behind (recordText (g :: fields))
    rw [recordText, readFields_of_some hfield]
    cases fields with
    | nil =>
      rw [recordText]
      by_cases hg : g.written = []
      · rw [if_pos hg]
        by_cases hf : f.written = []
        · -- the last field is lost
          rw [if_pos hf, readFields_of_peek rfl]
          simp [fieldsRead, endsEmpty, hf, hg]
        · have hempty : getTrimmedField ',' ⟨behind', [','], false, false⟩ =
              (some [], ⟨',' :: behind', [], true, false⟩) := by
            rw [getTrimmedField_cons, if_pos ⟨rfl, rfl⟩]
          rw [if_neg hf, readFields_of_some hempty, readFields_of_peek rfl]
          simp [fieldsRead, endsEmpty, hf, g.text_of_written hg]
      · rw [if_neg hg]
        have hlast := @ih behind' hg
        rw [recordText] at hlast
        rw [hlast]
        simp [fieldsRead, endsEmpty, hg]
    | cons h fields =>
      have hrest := recordText_cons_cons_ne_nil g h fields
      have hends : endsEmpty (f :: g :: h :: fields) = endsEmpty (g :: h :: fields) := rfl
      rw [if_neg hrest, ih hrest, fieldsRead, fieldsRead, hends]
      split_ifs <;> rfl

end Fields

/-! ## Files -/

theorem readRecords_nil : readRecords [] = [] := by
  rw [readRecords]
  rfl

theorem readRecords_of_some {line : List Char} {file rest : List (List Char)}
    (h : getTrimmedLine file = some (line, rest)) :
    readRecords file = readFields ',' (StringStream.ofString line) :: readRecords rest := by
  rw [readRecords]
  split
  · rename_i hline
    rw [h] at hline
    cases hline
    rfl
  · rename_i hline
    rw [h] at hline
    cases hline

/-- **What is read of the records of a file.** -/
theorem readRecords_fileText (records : List CsvRecord) :
    readRecords (getlines '\n' (fileText records)) =
      records.map fun r => fieldsRead r.fields := by
  induction records with
  | nil => exact readRecords_nil
  | cons r records ih =>
    have hline := getTrimmedLine_append (quoteState_recordText r.fields) (fileText records)
    rw [trim_recordText r.two_le] at hline
    rw [fileText, List.flatMap_cons, ← fileText, List.append_assoc, List.singleton_append,
      readRecords_of_some hline, ih, List.map_cons, StringStream.ofString,
      readFields_recordText r.fields r.recordText_ne_nil]

theorem CsvRecord.fieldsRead_eq_iff (r : CsvRecord) :
    fieldsRead r.fields = r.texts ↔ endsEmpty r.fields = false := by
  rw [fieldsRead, CsvRecord.texts]
  split_ifs with h
  · refine iff_of_false (fun heq => ?_) (Bool.eq_false_iff.not_left.mpr h)
    have hlen := congrArg List.length heq
    rw [List.length_dropLast, List.length_map] at hlen
    have := r.two_le
    omega
  · exact iff_of_true rfl (Bool.eq_false_iff.mpr h)

/-- **The records are read back** exactly when none ends with two empty fields. -/
theorem readRecords_fileText_iff (records : List CsvRecord) :
    readRecords (getlines '\n' (fileText records)) = records.map CsvRecord.texts ↔
      ∀ r ∈ records, endsEmpty r.fields = false := by
  rw [readRecords_fileText, List.map_inj_left]
  exact forall₂_congr fun r _ => r.fieldsRead_eq_iff

/-- A field without characters. -/
def emptyField : CsvField where
  text := []
  inQuotes := false
  head_notSpace _ h := absurd h (Option.not_mem_none _)
  last_notSpace _ h := absurd h (Option.not_mem_none _)
  inQuotes_of_mem h := by simp at h

/-- A record of two empty fields. -/
def emptyRecord : CsvRecord := ⟨[emptyField, emptyField], Nat.le_refl _⟩

/-- One field is read. -/
theorem emptyRecord_not_readBack :
    readRecords (getlines '\n' (fileText [emptyRecord])) ≠ [emptyRecord].map CsvRecord.texts := by
  rw [readRecords_fileText]
  decide

end Dive.StringUtils
