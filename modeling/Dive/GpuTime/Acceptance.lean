import Dive.GpuTime.LooseRows

/-!
# Which texts are timing tables

* `TableRow`: a row as it is to be spelled; `IsTable`: the header and ordered rows.
* `readRow_line`: what the conversions read of such a row; `looseTable_rows_iff`: when such rows are
  accepted.
* `SpelledOut`: a text has a line, spells out all that is read, and its numbers are in range.
* **`acceptsTables_iff`**: the loader accepts exactly the tables for the texts that `SpelledOut`
  describes.
* **`negativeFrame_not_acceptsTables`**: a negative number of frames.
-/

namespace Dive.AvailableGpuTiming

open Text

/-! ## Tables -/

/-- A decimal number with a fraction point. -/
structure Decimal where
  negative : Bool
  whole : List Char
  fraction : List Char
  isDigits_whole : IsDigits whole
  isDigits_fraction : IsDigits fraction

def Decimal.text (d : Decimal) : List Char :=
  (if d.negative then ['-'] else []) ++ d.whole ++ '.' :: d.fraction

def Decimal.value (d : Decimal) : ℚ :=
  negateIf d.negative ((Nat.ofDigitChars 10 (d.whole ++ d.fraction) 0 : ℚ) / 10 ^ d.fraction.length)

/-- A row: a known type, a natural number and two decimal numbers. -/
structure TableRow where
  objectType : ObjectType
  id : List Char
  mean : Decimal
  median : Decimal
  isDigits_id : IsDigits id

namespace TableRow

variable (r : TableRow)

def line : List Char :=
  (getObjectTypeString r.objectType).toList ++ ',' ::
    (r.id ++ ',' :: (r.mean.text ++ ',' :: r.median.text))

def number : ℕ := Nat.ofDigitChars 10 r.id 0

def entry : Entry := ⟨r.objectType, if r.objectType = .kFrame then 0 else r.number⟩

end TableRow

/-- There is one row for the frame at most, and the objects of the other types are numbered in order
of appearance. -/
structure Ordered (rows : List TableRow) : Prop where
  frame : (rows.filter fun r => r.objectType = .kFrame).length ≤ 1
  inOrder : ∀ objectType, objectType ≠ .kFrame →
    (rows.filter fun r => r.objectType = objectType).map TableRow.number =
      List.range (rows.filter fun r => r.objectType = objectType).length

/-- The header and ordered rows, up to empty lines. -/
def IsTable (fullText : List Char) : Prop :=
  ∃ rows : List TableRow, textLines fullText = header :: rows.map TableRow.line ∧ Ordered rows

section Range

variable (inRange : ℚ → Bool)

/-- The loader accepts the text exactly if it is a table; what is rejected has no statistics. -/
structure AcceptsTables (fullText : List Char) : Prop where
  accepted : (loadFromStringIn inRange {} fullText).2 = true ↔ IsTable fullText
  rejected : (loadFromStringIn inRange {} fullText).2 = false →
    (∀ objectType objectId,
      (loadFromStringIn inRange {} fullText).1.getStatsByType objectType objectId = none) ∧
    ∀ rowId, (loadFromStringIn inRange {} fullText).1.getStatsByRow rowId = none

/-- The numbers are in the range of `int` and `float`, and the rows in that of `uint32_t`. -/
structure InRange (rows : List TableRow) : Prop where
  number : ∀ r ∈ rows, r.number < 2 ^ 31
  mean : ∀ r ∈ rows, inRange r.mean.value = true
  median : ∀ r ∈ rows, inRange r.median.value = true
  length : rows.length < 2 ^ 32

/-- The text has a line; if its lines can be read, then they are spelled out; and the numbers of
ordered rows are in range. -/
structure SpelledOut (fullText : List Char) : Prop where
  lines : textLines fullText ≠ []
  spelled : LooseTable inRange (textLines fullText) →
    ∃ rows : List TableRow, textLines fullText = header :: rows.map TableRow.line
  range : ∀ rows : List TableRow, textLines fullText = header :: rows.map TableRow.line →
    Ordered rows → InRange inRange rows

/-! ## What is read of a row -/

theorem notMem_of_isDigits {l : List Char} (h : IsDigits l) {d : Char}
    (hd : d = ',' ∨ d = '\n' ∨ d = '.') : d ∉ l := by
  intro hmem
  have hdigit := ne_of_isDigit (h.isDigit d hmem)
  rcases hd with rfl | rfl | rfl
  · exact hdigit.1 rfl
  · exact hdigit.2.1 rfl
  · exact hdigit.2.2.1 rfl

theorem Decimal.comma_notMem (d : Decimal) : ',' ∉ d.text := by
  rw [Decimal.text, List.mem_append, List.mem_append, List.mem_cons]
  rintro ((h | h) | h | h)
  · split_ifs at h <;> simp at h
  · exact notMem_of_isDigits d.isDigits_whole (.inl rfl) h
  · cases h
  · exact notMem_of_isDigits d.isDigits_fraction (.inl rfl) h

theorem Decimal.point_mem (d : Decimal) : '.' ∈ d.text :=
  List.mem_append_right _ List.mem_cons_self

/-- **The fields of a row.** -/
theorem TableRow.getlines_line (r : TableRow) :
    getlines ',' r.line = [(getObjectTypeString r.objectType).toList, r.id, r.mean.text,
      r.median.text] := by
  rw [TableRow.line, getlines_append _ fun h => (mem_typeString h).1 rfl,
    getlines_append _ (notMem_of_isDigits r.isDigits_id (.inl rfl)),
    getlines_append _ r.mean.comma_notMem,
    getlines_of_notMem _ r.median.comma_notMem (List.ne_nil_of_mem r.median.point_mem)]

theorem readId_digits {l : List Char} (h : IsDigits l) :
    readId l =
      if Nat.ofDigitChars 10 l 0 < 2 ^ 31 then some (Nat.ofDigitChars 10 l 0) else none := by
  rw [readId, stoi_digits h]
  by_cases hlt : Nat.ofDigitChars 10 l 0 < 2 ^ 31
  · rw [if_pos hlt, if_pos hlt]
    dsimp only
    rw [if_neg (notMem_of_isDigits h (.inr (.inr rfl)))]
    congr 1
    omega
  · rw [if_neg hlt, if_neg hlt]

theorem readTime_text (d : Decimal) :
    readTime inRange d.text = if inRange d.value then some (.finite d.value) else none := by
  have hread : stof d.text = .ok (.finite d.value) :=
    stof_digits d.isDigits_whole d.isDigits_fraction.isDigit d.negative
  rw [readTime, stofIn, hread]
  dsimp only
  by_cases hvalue : inRange d.value = true
  · rw [if_pos hvalue, if_pos hvalue]
    dsimp only
    rw [if_pos d.point_mem]
  · rw [if_neg hvalue, if_neg hvalue]

/-- The row as the loader keeps it. -/
def TableRow.loaded (r : TableRow) : LoadedRow :=
  ⟨r.objectType, r.number, ⟨.finite r.mean.value, .finite r.median.value⟩⟩

/-- **A row is read as it is spelled**, if its numbers are in range. -/
theorem readRow_line (r : TableRow) : readRow inRange r.line =
    if r.number < 2 ^ 31 ∧ inRange r.mean.value = true ∧ inRange r.median.value = true then
      some r.loaded
    else none := by
  have htype : getObjectType (getObjectTypeString r.objectType).toList = some r.objectType := by
    cases r.objectType <;> decide
  have hcolumns : [(getObjectTypeString r.objectType).toList, r.id, r.mean.text,
      r.median.text].length = getColumns := rfl
  have hid : readId r.id = if r.number < 2 ^ 31 then some r.number else none :=
    readId_digits r.isDigits_id
  rw [readRow, r.getlines_line, if_pos hcolumns]
  simp only [List.getD_cons_zero, List.getD_cons_succ, htype, hid, readTime_text]
  rw [ite_and]
  by_cases hnumber : r.number < 2 ^ 31
  · rw [if_pos hnumber, if_pos hnumber]
    cases hmean : inRange r.mean.value <;> cases hmedian : inRange r.median.value <;>
      simp [TableRow.loaded]
  · rw [if_neg hnumber, if_neg hnumber]
    rfl

theorem not_isHeader_line (r : TableRow) : ¬IsHeader r.line := by
  rw [IsHeader, r.getlines_line]
  intro h
  have htype := (List.cons.inj h).1
  revert htype
  cases r.objectType <;> decide

theorem isHeader_header : IsHeader header := by
  rw [IsHeader]
  decide

/-! ## When rows are accepted -/

theorem entriesOfLines_rows {rows : List TableRow} (h : ∀ r ∈ rows, r.number < 2 ^ 31)
    (hmean : ∀ r ∈ rows, inRange r.mean.value = true)
    (hmedian : ∀ r ∈ rows, inRange r.median.value = true) :
    entriesOfLines inRange (header :: rows.map TableRow.line) = rows.map TableRow.entry := by
  have hread : ∀ r ∈ rows, readRow inRange r.line = some r.loaded := fun r hr => by
    rw [readRow_line, if_pos ⟨h r hr, hmean r hr, hmedian r hr⟩]
  rw [entriesOfLines, List.filterMap_cons_none (readRow_of_isHeader inRange isHeader_header)]
  clear h hmean hmedian
  induction rows with
  | nil => rfl
  | cons r rows ih =>
    rw [List.forall_mem_cons] at hread
    rw [List.map_cons, List.filterMap_cons_some hread.1, List.map_cons, ih hread.2]
    rfl

theorem replicate_zero_eq_range_iff : ∀ n : ℕ, List.replicate n 0 = List.range n ↔ n ≤ 1
  | 0 => iff_of_true rfl (Nat.zero_le 1)
  | 1 => iff_of_true rfl (Nat.le_refl 1)
  | n + 2 => by
    refine iff_of_false (fun h => ?_) (by omega)
    have hone := congrArg (·[1]?) h
    simp at hone

/-- **The numbers of the entries** are those of the rows, but for the frame. -/
theorem inOrder_entries_iff (rows : List TableRow) :
    InOrder (rows.map TableRow.entry) ↔ Ordered rows := by
  have hentries : ∀ objectType, entriesOf objectType (rows.map TableRow.entry) =
      (rows.filter fun r => r.objectType = objectType).map TableRow.entry := fun objectType => by
    rw [entriesOf, List.filter_map]
    rfl
  have hframe : ∀ l : List TableRow, (∀ r ∈ l, r.objectType = .kFrame) →
      ((l.map TableRow.entry).map Entry.perFrameId =
        List.range (l.map TableRow.entry).length ↔ l.length ≤ 1) := by
    intro l hl
    have hzero : (l.map TableRow.entry).map Entry.perFrameId = List.replicate l.length 0 := by
      rw [List.map_map, ← List.map_const']
      refine List.map_congr_left fun r hr => ?_
      rw [Function.comp_apply, TableRow.entry, if_pos (hl r hr)]
    rw [hzero, List.length_map]
    exact replicate_zero_eq_range_iff l.length
  have hother : ∀ objectType, objectType ≠ .kFrame →
      ((rows.filter fun r => r.objectType = objectType).map TableRow.entry).map Entry.perFrameId =
        (rows.filter fun r => r.objectType = objectType).map TableRow.number := by
    intro objectType hne
    rw [List.map_map]
    refine List.map_congr_left fun r hr => ?_
    have htype : r.objectType = objectType := of_decide_eq_true (List.mem_filter.mp hr).2
    rw [Function.comp_apply, TableRow.entry, if_neg (htype ▸ hne)]
  constructor
  · intro h
    refine ⟨?_, fun objectType hne => ?_⟩
    · have := h .kFrame
      rw [hentries] at this
      exact (hframe _ fun r hr => of_decide_eq_true (List.mem_filter.mp hr).2).mp this
    · have := h objectType
      rwa [hentries, hother objectType hne, List.length_map] at this
  · intro h objectType
    rw [hentries]
    by_cases hne : objectType = .kFrame
    · subst hne
      exact (hframe _ fun r hr => of_decide_eq_true (List.mem_filter.mp hr).2).mpr h.frame
    · rw [hother objectType hne, List.length_map]
      exact h.inOrder objectType hne

/-- **Rows that are spelled out** are accepted exactly if they are in order and in range. -/
theorem looseTable_rows_iff (rows : List TableRow) :
    LooseTable inRange (header :: rows.map TableRow.line) ↔
      Ordered rows ∧ InRange inRange rows := by
  have hget : ∀ k r, rows[k]? = some r →
      (header :: rows.map TableRow.line)[k + 1]? = some r.line := fun k r hk => by
    rw [List.getElem?_cons_succ, List.getElem?_map, hk, Option.map_some]
  constructor
  · intro h
    have hlen : rows.length < 2 ^ 32 := by
      by_contra hlong
      have hlt : 2 ^ 32 - 1 < rows.length := by omega
      exact not_isHeader_line _ (h.header _ _ (hget _ _ (List.getElem?_eq_getElem hlt)) (.inr rfl))
    have hread : ∀ r ∈ rows, r.number < 2 ^ 31 ∧ inRange r.mean.value = true ∧
        inRange r.median.value = true := by
      intro r hr
      obtain ⟨k, hk, hkr⟩ := List.mem_iff_getElem.mp hr
      have hsome := h.rows (k + 1) r.line
        (hget k r (by rw [List.getElem?_eq_getElem hk, hkr])) (Nat.succ_ne_zero k) (by omega)
      rw [readRow_line] at hsome
      by_contra hnot
      rw [if_neg hnot] at hsome
      cases hsome
    have horder := h.inOrder
    rw [entriesOfLines_rows inRange (fun r hr => (hread r hr).1) (fun r hr => (hread r hr).2.1)
      fun r hr => (hread r hr).2.2] at horder
    exact ⟨(inOrder_entries_iff rows).mp horder, fun r hr => (hread r hr).1,
      fun r hr => (hread r hr).2.1, fun r hr => (hread r hr).2.2, hlen⟩
  · rintro ⟨hordered, hrange⟩
    have hlen := hrange.length
    refine ⟨fun k line hk hheader => ?_, fun k line hk hzero _ => ?_, ?_, ?_⟩
    · have hlt := (List.getElem?_eq_some_iff.mp hk).1
      rw [List.length_cons, List.length_map] at hlt
      rcases hheader with rfl | rfl
      · rw [List.getElem?_cons_zero] at hk
        exact Option.some_inj.mp hk ▸ isHeader_header
      · omega
    · obtain ⟨j, rfl⟩ := Nat.exists_eq_succ_of_ne_zero hzero
      rw [List.getElem?_cons_succ, List.getElem?_map] at hk
      obtain ⟨r, hr, rfl⟩ := Option.map_eq_some_iff.mp hk
      have hmem := List.mem_of_getElem? hr
      rw [readRow_line, if_pos ⟨hrange.number r hmem, hrange.mean r hmem, hrange.median r hmem⟩]
      rfl
    · rw [entriesOfLines_rows inRange hrange.number hrange.mean hrange.median]
      exact (inOrder_entries_iff rows).mpr hordered
    · rw [List.length_cons, List.length_map]
      omega

/-! ## The result -/

theorem getStats_of_invalid {t : AvailableGpuTiming} (h : t.valid = false) :
    (∀ objectType objectId, t.getStatsByType objectType objectId = none) ∧
      ∀ rowId, t.getStatsByRow rowId = none :=
  ⟨fun objectType objectId => by rw [getStatsByType, if_pos h],
    fun rowId => by rw [getStatsByRow, if_pos h]⟩

/-- **The loader accepts exactly the tables** for the texts that spell out what is read of them. -/
theorem acceptsTables_iff (inRange : ℚ → Bool) (fullText : List Char) :
    AcceptsTables inRange fullText ↔ SpelledOut inRange fullText := by
  have hload := loadFromStringIn_iff inRange fullText
  constructor
  · intro h
    have hiff := hload.1.symm.trans h.accepted
    refine ⟨fun hnil => ?_, fun hloose => ?_, fun rows hlines hordered => ?_⟩
    · obtain ⟨rows, hlines, -⟩ := hiff.mp (hnil ▸ LooseTable.nil inRange)
      rw [hnil] at hlines
      cases hlines
    · obtain ⟨rows, hlines, -⟩ := hiff.mp hloose
      exact ⟨rows, hlines⟩
    · have hloose := hiff.mpr ⟨rows, hlines, hordered⟩
      rw [hlines] at hloose
      exact ((looseTable_rows_iff inRange rows).mp hloose).2
  · intro h
    refine ⟨hload.1.trans ⟨fun hloose => ?_, ?_⟩, fun hrejected => ?_⟩
    · obtain ⟨rows, hlines⟩ := h.spelled hloose
      rw [hlines] at hloose
      exact ⟨rows, hlines, ((looseTable_rows_iff inRange rows).mp hloose).1⟩
    · rintro ⟨rows, hlines, hordered⟩
      rw [hlines]
      exact (looseTable_rows_iff inRange rows).mpr ⟨hordered, h.range rows hlines hordered⟩
    · exact getStats_of_invalid (hload.2.trans hrejected)

/-- A row with a negative number of frames, and with text behind a time. -/
def negativeFrame : List Char := "Frame,-5,0.345s,0.341".toList

/-- It is loaded. -/
theorem negativeFrame_not_acceptsTables :
    ¬AcceptsTables (fun _ => true) (header ++ '\n' :: negativeFrame) := by
  intro h
  have haccepted : (loadFromStringIn (fun _ => true) {} (header ++ '\n' :: negativeFrame)).2 =
      true := by decide +kernel
  obtain ⟨rows, hlines, -⟩ := h.accepted.mp haccepted
  have htext : textLines (header ++ '\n' :: negativeFrame) = [header, negativeFrame] := by decide
  rw [htext] at hlines
  cases rows with
  | nil => cases hlines
  | cons r rows =>
    have hline : negativeFrame = r.line := (List.cons.inj (List.cons.inj hlines).2).1
    have hfields := r.getlines_line
    rw [← hline] at hfields
    have hid : r.id = ['-', '5'] := (List.cons.inj (List.cons.inj hfields).2).1.symm
    have hdigit := r.isDigits_id.isDigit '-' (hid ▸ List.mem_cons_self)
    exact absurd hdigit (by decide)

end Range

end Dive.AvailableGpuTiming
