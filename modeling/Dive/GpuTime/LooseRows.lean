import Dive.GpuTime.AvailableGpuTiming
import Mathlib.Data.List.Induction

/-!
# The lines that the loader accepts

* `readRow`: a row as the conversions read it, with whatever they ignore.
* `Numbered`: objects of each type are numbered in order; `numbered_concat`: one more object.
* `LooseTable`: the header and numbered rows, as the conversions read them.
* **`loadLinesIn_iff`**: what the loader accepts is a loose table.
-/

namespace Dive.AvailableGpuTiming

open Text

section Range

variable (inRange : ℚ → Bool)

/-! ## Rows -/

structure LoadedRow where
  objectType : ObjectType
  id : ℕ
  stats : Stats

def LoadedRow.entry (r : LoadedRow) : Entry :=
  ⟨r.objectType, if r.objectType = .kFrame then 0 else r.id⟩

/-- The number in the id field, as a `uint32_t`. -/
def readId (field : List Char) : Option ℕ :=
  match stoi field with
  | .ok id => if '.' ∈ field then none else some (id % 2 ^ 32).toNat
  | .error _ => none

/-- The number in a field of a time. -/
def readTime (field : List Char) : Option FloatValue :=
  match stofIn inRange field with
  | .ok v => if '.' ∈ field then some v else none
  | .error _ => none

/-- A row as the conversions read it. -/
def readRow (line : List Char) : Option LoadedRow :=
  let fields := getlines ',' line
  if fields.length = getColumns then do
    let objectType ← getObjectType (fields.getD 0 [])
    let id ← readId (fields.getD 1 [])
    let meanMs ← readTime inRange (fields.getD 2 [])
    let medianMs ← readTime inRange (fields.getD 3 [])
    some ⟨objectType, id, ⟨meanMs, medianMs⟩⟩
  else none

theorem loadLineIn_eq (t : AvailableGpuTiming) {row : ℕ} (hrow : row ≠ 0) {line : List Char}
    (hline : line ≠ []) : loadLineIn inRange t row line =
      (readRow inRange line).elim (t, false) fun r => t.addEntry row r.objectType r.id r.stats := by
  have hfields : (getlines ',' line).length ≠ 0 := fun h =>
    hline ((getlines_eq_nil _).mp (List.length_eq_zero_iff.mp h))
  rw [loadLineIn, readRow, if_neg hfields]
  by_cases hlen : (getlines ',' line).length = getColumns
  · rw [if_neg (not_not.mpr hlen), if_neg hrow, if_pos hlen, readId, readTime, readTime]
    generalize getObjectType ((getlines ',' line).getD 0 []) = objectType
    generalize (getlines ',' line).getD 1 [] = idField
    generalize (getlines ',' line).getD 2 [] = meanField
    generalize (getlines ',' line).getD 3 [] = medianField
    -- every conversion and every check that fails rejects the line
    cases stoi idField with
    | error e => cases objectType <;> rfl
    | ok id =>
      cases stofIn inRange meanField with
      | error e => cases objectType <;> dsimp only <;> split_ifs <;> rfl
      | ok meanMs =>
        cases stofIn inRange medianField with
        | error e => cases objectType <;> dsimp only <;> split_ifs <;> rfl
        | ok medianMs => cases objectType <;> dsimp only <;> split_ifs <;> rfl
  · rw [if_pos hlen, if_neg hlen]
    rfl

/-- A line that is read as the header. -/
def IsHeader (line : List Char) : Prop := getlines ',' line = columnTypeStrings

theorem loadLineIn_zero (t : AvailableGpuTiming) {line : List Char} (hline : line ≠ []) :
    (loadLineIn inRange t 0 line).1 = t ∧
      ((loadLineIn inRange t 0 line).2 = true ↔ IsHeader line) := by
  have hfields : (getlines ',' line).length ≠ 0 := fun h =>
    hline ((getlines_eq_nil _).mp (List.length_eq_zero_iff.mp h))
  rw [loadLineIn, if_neg hfields, if_pos rfl]
  by_cases hlen : (getlines ',' line).length = getColumns
  · rw [if_neg (not_not.mpr hlen)]
    exact ⟨rfl, decide_eq_true_iff⟩
  · rw [if_pos hlen]
    exact ⟨rfl, iff_of_false Bool.false_ne_true fun h => hlen (congrArg List.length h)⟩

theorem readRow_of_isHeader {line : List Char} (h : IsHeader line) :
    readRow inRange line = none := by
  rw [readRow, h]
  rfl

/-! ## Numbers in order -/

/-- The entries of a type. -/
def entriesOf (objectType : ObjectType) (entries : List Entry) : List Entry :=
  entries.filter fun e => e.objectType = objectType

/-- The objects of each type are numbered 0, 1, 2, ... -/
def InOrder (entries : List Entry) : Prop :=
  ∀ objectType, (entriesOf objectType entries).map Entry.perFrameId =
    List.range (entriesOf objectType entries).length

theorem entriesOf_concat (objectType : ObjectType) (entries : List Entry) (e : Entry) :
    entriesOf objectType (entries ++ [e]) =
      entriesOf objectType entries ++ if e.objectType = objectType then [e] else [] := by
  rw [entriesOf, List.filter_append, ← entriesOf]
  congr 1
  by_cases h : e.objectType = objectType <;> simp [h]

theorem inOrder_concat {entries : List Entry} {e : Entry} :
    InOrder (entries ++ [e]) ↔
      InOrder entries ∧ e.perFrameId = (entriesOf e.objectType entries).length := by
  have hself : (entriesOf e.objectType (entries ++ [e])).map Entry.perFrameId =
        List.range (entriesOf e.objectType (entries ++ [e])).length ↔
      (entriesOf e.objectType entries).map Entry.perFrameId =
          List.range (entriesOf e.objectType entries).length ∧
        e.perFrameId = (entriesOf e.objectType entries).length := by
    rw [entriesOf_concat, if_pos rfl, List.map_append, List.length_append, List.length_singleton,
      List.range_succ]
    constructor
    · intro h
      have hinj := List.append_inj' h rfl
      exact ⟨hinj.1, List.singleton_inj.mp hinj.2⟩
    · intro h
      rw [h.1, List.map_singleton, h.2]
  have hother : ∀ objectType, e.objectType ≠ objectType →
      entriesOf objectType (entries ++ [e]) = entriesOf objectType entries := by
    intro objectType hne
    rw [entriesOf_concat, if_neg hne, List.append_nil]
  constructor
  · intro h
    refine ⟨fun objectType => ?_, (hself.mp (h e.objectType)).2⟩
    by_cases htype : e.objectType = objectType
    · subst htype
      exact (hself.mp (h e.objectType)).1
    · rw [← hother objectType htype]
      exact h objectType
  · intro h objectType
    by_cases htype : e.objectType = objectType
    · subst htype
      exact hself.mpr ⟨h.1 e.objectType, h.2⟩
    · rw [hother objectType htype]
      exact h.1 objectType

/-! ## The loop -/

/-- The entries, and the lengths of the lists, after some rows. -/
structure Holds (entries : List Entry) (t : AvailableGpuTiming) : Prop where
  orderedEntries : t.orderedEntries = entries
  length_stats : t.stats.length = 3
  stats : ∀ objectType : ObjectType, (t.stats.getD objectType.index []).length =
    (entriesOf objectType entries).length

theorem getD_modify {stats : List (List Stats)} (h : stats.length = 3) (a b : ObjectType)
    (f : List Stats → List Stats) : (stats.modify a.index f).getD b.index [] =
      if a = b then f (stats.getD b.index []) else stats.getD b.index [] := by
  obtain ⟨x, y, z, rfl⟩ := List.length_eq_three.mp h
  cases a <;> cases b <;> rfl

/-- **A row is added** where it has the next number of its type. -/
theorem Holds.addEntry {entries : List Entry} {t : AvailableGpuTiming} (h : Holds entries t)
    (row : ℕ) (r : LoadedRow) :
    ((t.addEntry row r.objectType r.id r.stats).2 = true ↔
      r.entry.perFrameId = (entriesOf r.objectType entries).length ∧ row = entries.length + 1) ∧
    ((t.addEntry row r.objectType r.id r.stats).2 = true →
      Holds (entries ++ [r.entry]) (t.addEntry row r.objectType r.id r.stats).1) := by
  rw [AvailableGpuTiming.addEntry]
  have ht : Holds entries
      (if r.objectType = .kFrame then { t with totalFrames := r.id } else t) := by
    split_ifs
    · exact ⟨h.orderedEntries, h.length_stats, h.stats⟩
    · exact h
  generalize (if r.objectType = .kFrame then { t with totalFrames := r.id } else t) = t' at ht
  have hstats := ht.stats r.objectType
  have hentry : (⟨r.objectType, if r.objectType = .kFrame then 0 else r.id⟩ : Entry) =
      r.entry := rfl
  rw [hentry, hstats, ht.orderedEntries]
  dsimp only
  split_ifs with hnumber
  · exact ⟨iff_of_false not_false fun hnext => hnumber hnext.1.symm, False.elim⟩
  · rw [not_not] at hnumber
    dsimp only
    rw [List.length_append, List.length_singleton, decide_eq_true_eq]
    refine ⟨(and_iff_right hnumber.symm).symm, fun _ => ⟨rfl, ?_, fun objectType => ?_⟩⟩
    · rw [List.length_modify, ht.length_stats]
    · rw [getD_modify ht.length_stats, entriesOf_concat, List.length_append, ← ht.stats objectType]
      have htype : r.entry.objectType = r.objectType := rfl
      rw [htype]
      split_ifs
      · rw [List.length_append]
        rfl
      · rfl

/-- The entries of the lines that are rows. -/
def entriesOfLines (lines : List (List Char)) : List Entry :=
  (lines.filterMap (readRow inRange)).map LoadedRow.entry

/-- The lines are the header and numbered rows, as the conversions read them. The line in front of
which the number of the row wraps is read as a header too. -/
structure LooseTable (lines : List (List Char)) : Prop where
  header : ∀ k line, lines[k]? = some line → k = 0 ∨ k = 2 ^ 32 → IsHeader line
  rows : ∀ k line, lines[k]? = some line → k ≠ 0 → k ≠ 2 ^ 32 →
    (readRow inRange line).isSome = true
  inOrder : InOrder (entriesOfLines inRange lines)
  length_le : lines.length ≤ 2 ^ 32 + 1

theorem LooseTable.nil : LooseTable inRange [] where
  header _ _ h := by simp at h
  rows _ _ h := by simp at h
  inOrder _ := rfl
  length_le := Nat.zero_le _

theorem entriesOfLines_concat (lines : List (List Char)) (line : List Char) :
    entriesOfLines inRange (lines ++ [line]) = entriesOfLines inRange lines ++
      ((readRow inRange line).map LoadedRow.entry).toList := by
  rw [entriesOfLines, List.filterMap_append, List.map_append, ← entriesOfLines]
  congr 1
  cases h : readRow inRange line with
  | none => rw [List.filterMap_cons_none h]; rfl
  | some r => rw [List.filterMap_cons_some h]; rfl

/-- What is to come behind the lines of a table. -/
def Continues (lines : List (List Char)) (line : List Char) : Prop :=
  if lines.length = 0 ∨ lines.length = 2 ^ 32 then IsHeader line
  else ∃ r, readRow inRange line = some r ∧ r.entry.perFrameId =
    (entriesOf r.objectType (entriesOfLines inRange lines)).length

theorem looseTable_concat (lines : List (List Char)) (line : List Char) :
    LooseTable inRange (lines ++ [line]) ↔
      LooseTable inRange lines ∧ lines.length ≤ 2 ^ 32 ∧ Continues inRange lines line := by
  have hget : ∀ k line', lines[k]? = some line' → (lines ++ [line])[k]? = some line' :=
    fun k line' hk => by
      rw [List.getElem?_append_left (List.getElem?_eq_some_iff.mp hk).1, hk]
  have hlast : (lines ++ [line])[lines.length]? = some line := List.getElem?_concat_length
  rw [Continues]
  constructor
  · intro h
    have hlen := h.length_le
    rw [List.length_append, List.length_singleton] at hlen
    have horder := h.inOrder
    rw [entriesOfLines_concat] at horder
    have hbefore : InOrder (entriesOfLines inRange lines) := by
      cases hrow : readRow inRange line with
      | none =>
        rw [hrow] at horder
        simpa using horder
      | some r =>
        rw [hrow] at horder
        exact (inOrder_concat.mp horder).1
    refine ⟨⟨fun k line' hk => h.header k line' (hget k line' hk),
      fun k line' hk => h.rows k line' (hget k line' hk), hbefore, by omega⟩, by omega, ?_⟩
    split_ifs with hheader
    · exact h.header _ line hlast hheader
    · rw [not_or] at hheader
      obtain ⟨r, hr⟩ := Option.isSome_iff_exists.mp (h.rows _ line hlast hheader.1 hheader.2)
      rw [hr] at horder
      exact ⟨r, hr, (inOrder_concat.mp horder).2⟩
  · rintro ⟨h, hlen, hline⟩
    have hcases : ∀ k line', (lines ++ [line])[k]? = some line' →
        lines[k]? = some line' ∨ k = lines.length ∧ line' = line := by
      intro k line' hk
      rcases Nat.lt_or_ge k lines.length with hlt | hge
      · rw [List.getElem?_append_left hlt] at hk
        exact .inl hk
      · rw [List.getElem?_append_right hge, List.getElem?_singleton] at hk
        split_ifs at hk with hzero
        exact .inr ⟨by omega, (Option.some_inj.mp hk).symm⟩
    refine ⟨fun k line' hk hheader => ?_, fun k line' hk hzero hwrap => ?_, ?_, ?_⟩
    · rcases hcases k line' hk with hk | ⟨rfl, rfl⟩
      · exact h.header k line' hk hheader
      · rwa [if_pos hheader] at hline
    · rcases hcases k line' hk with hk | ⟨rfl, rfl⟩
      · exact h.rows k line' hk hzero hwrap
      · rw [if_neg fun hheader => hheader.elim hzero hwrap] at hline
        obtain ⟨r, hr, -⟩ := hline
        rw [hr]
        rfl
    · rw [entriesOfLines_concat]
      split_ifs at hline
      · rw [readRow_of_isHeader inRange hline]
        simpa using h.inOrder
      · obtain ⟨r, hr, hnumber⟩ := hline
        rw [hr]
        exact inOrder_concat.mpr ⟨h.inOrder, hnumber⟩
    · rw [List.length_append, List.length_singleton]
      omega

theorem LooseTable.length_entries {lines : List (List Char)} (h : LooseTable inRange lines) :
    (entriesOfLines inRange lines).length =
      if lines.length ≤ 2 ^ 32 then lines.length - 1 else 2 ^ 32 - 1 := by
  induction lines using List.reverseRecOn with
  | nil => rfl
  | append_singleton lines line ih =>
    obtain ⟨hlines, hlen, hline⟩ := (looseTable_concat inRange lines line).mp h
    have hentries := ih hlines
    rw [if_pos hlen] at hentries
    rw [entriesOfLines_concat, List.length_append, List.length_append, List.length_singleton,
      hentries]
    rw [Continues] at hline
    split_ifs at hline with hheader
    · rw [readRow_of_isHeader inRange hline, Option.map_none, Option.toList_none, List.length_nil]
      split_ifs <;> omega
    · obtain ⟨r, hr, -⟩ := hline
      rw [hr, Option.map_some, Option.toList_some, List.length_singleton, if_pos (by omega)]
      omega

theorem loadLinesIn_concat (lines : List (List Char)) (hlines : ∀ line ∈ lines, line ≠ [])
    {line : List Char} (hline : line ≠ []) {row : ℕ} (hrow : row < 2 ^ 32)
    (t : AvailableGpuTiming) :
    loadLinesIn inRange (lines ++ [line]) row t =
      if (loadLinesIn inRange lines row t).2 then
        loadLineIn inRange (loadLinesIn inRange lines row t).1 ((row + lines.length) % 2 ^ 32) line
      else loadLinesIn inRange lines row t := by
  induction lines generalizing row t with
  | nil =>
    have hnil : loadLinesIn inRange [] row t = (t, true) := rfl
    rw [hnil, if_pos rfl, List.nil_append, List.length_nil, Nat.add_zero, Nat.mod_eq_of_lt hrow,
      loadLinesIn, if_neg hline]
    cases loadLineIn inRange t row line with
    | mk t' loaded => cases loaded <;> rfl
  | cons first lines ih =>
    rw [List.forall_mem_cons] at hlines
    rw [List.cons_append, loadLinesIn, loadLinesIn, if_neg hlines.1, if_neg hlines.1]
    cases loadLineIn inRange t row first with
    | mk t' loaded =>
      cases loaded with
      | false => rfl
      | true =>
        have hmod : ((row + 1) % 2 ^ 32 + lines.length) % 2 ^ 32 =
            (row + (lines.length + 1)) % 2 ^ 32 := by omega
        have := ih hlines.2 (Nat.mod_lt (row + 1) (Nat.two_pow_pos 32)) t'
        rw [hmod] at this
        exact this

/-- **One line** behind the lines of a table. -/
theorem loadLineIn_iff {lines : List (List Char)} (h : LooseTable inRange lines) {line : List Char}
    (hline : line ≠ []) {t : AvailableGpuTiming} (ht : Holds (entriesOfLines inRange lines) t) :
    ((loadLineIn inRange t (lines.length % 2 ^ 32) line).2 = true ↔
        lines.length ≤ 2 ^ 32 ∧ Continues inRange lines line) ∧
      ((loadLineIn inRange t (lines.length % 2 ^ 32) line).2 = true →
        Holds (entriesOfLines inRange (lines ++ [line]))
          (loadLineIn inRange t (lines.length % 2 ^ 32) line).1) := by
  have hlen := h.length_le
  have hentries := h.length_entries
  rw [Continues, entriesOfLines_concat]
  by_cases hheader : lines.length = 0 ∨ lines.length = 2 ^ 32
  · have hzero : lines.length % 2 ^ 32 = 0 := by omega
    have hshort : lines.length ≤ 2 ^ 32 := by omega
    have hloaded := loadLineIn_zero inRange t hline
    rw [hzero, if_pos hheader, hloaded.2, hloaded.1, and_iff_right hshort]
    refine ⟨Iff.rfl, fun hisHeader => ?_⟩
    rw [readRow_of_isHeader inRange hisHeader]
    simpa using ht
  · have hrow : lines.length % 2 ^ 32 ≠ 0 := by omega
    rw [if_neg hheader, loadLineIn_eq inRange t hrow hline]
    cases hread : readRow inRange line with
    | none =>
      refine ⟨iff_of_false Bool.false_ne_true ?_, fun hfalse => absurd hfalse Bool.false_ne_true⟩
      rintro ⟨-, r, hr, -⟩
      exact absurd hr (Option.some_ne_none r).symm
    | some r =>
      have hadd := ht.addEntry (lines.length % 2 ^ 32) r
      refine ⟨hadd.1.trans ?_, hadd.2⟩
      constructor
      · rintro ⟨hnumber, hposition⟩
        refine ⟨?_, r, rfl, hnumber⟩
        by_contra hlong
        rw [if_neg hlong] at hentries
        omega
      · rintro ⟨hshort, r', hr, hnumber⟩
        cases hr
        rw [if_pos hshort] at hentries
        exact ⟨hnumber, by omega⟩

/-- **What the loop accepts.** -/
theorem loadLinesIn_iff (lines : List (List Char)) (hlines : ∀ line ∈ lines, line ≠ [])
    (t : AvailableGpuTiming) (ht : Holds [] t) :
    ((loadLinesIn inRange lines 0 t).2 = true ↔ LooseTable inRange lines) ∧
      ((loadLinesIn inRange lines 0 t).2 = true →
        Holds (entriesOfLines inRange lines) (loadLinesIn inRange lines 0 t).1) := by
  induction lines using List.reverseRecOn with
  | nil => exact ⟨iff_of_true rfl (LooseTable.nil inRange), fun _ => ht⟩
  | append_singleton lines line ih =>
    have hbefore := ih fun l hl => hlines l (List.mem_append_left _ hl)
    have hline := hlines line (List.mem_append_right _ (List.mem_singleton.mpr rfl))
    have hconcat := loadLinesIn_concat inRange lines
      (fun l hl => hlines l (List.mem_append_left _ hl)) hline (Nat.two_pow_pos 32) t
    rw [Nat.zero_add] at hconcat
    rw [hconcat, looseTable_concat]
    by_cases hloaded : (loadLinesIn inRange lines 0 t).2 = true
    · have htable := hbefore.1.mp hloaded
      have hholds := hbefore.2 hloaded
      rw [if_pos hloaded, and_iff_right htable]
      exact loadLineIn_iff inRange htable hline hholds
    · rw [if_neg hloaded]
      exact ⟨iff_of_false hloaded fun h => hloaded (hbefore.1.mpr h.1), fun h => absurd h hloaded⟩

/-! ## The whole text -/

theorem loadLinesIn_filter (lines : List (List Char)) (row : ℕ) (t : AvailableGpuTiming) :
    loadLinesIn inRange lines row t =
      loadLinesIn inRange (lines.filter fun line => line ≠ []) row t := by
  induction lines generalizing row t with
  | nil => rfl
  | cons line lines ih =>
    by_cases hline : line = []
    · rw [loadLinesIn, if_pos hline, ih, List.filter_cons_of_neg (by simpa using hline)]
    · rw [List.filter_cons_of_pos (by simpa using hline), loadLinesIn, loadLinesIn, if_neg hline,
        if_neg hline]
      cases loadLineIn inRange t row line with
      | mk t' loaded =>
        cases loaded with
        | false => rfl
        | true => exact ih _ _

/-- The lines of a text that are not empty. -/
def textLines (fullText : List Char) : List (List Char) :=
  (getlines '\n' fullText).filter fun line => line ≠ []

theorem length_entriesOf (entries : List Entry) :
    (entriesOf .kFrame entries).length + ((entriesOf .kCommandBuffer entries).length +
      (entriesOf .kRenderPass entries).length) = entries.length := by
  induction entries using List.reverseRecOn with
  | nil => rfl
  | append_singleton entries e ih =>
    rw [entriesOf_concat, entriesOf_concat, entriesOf_concat, List.length_append]
    cases e.objectType <;> simp <;> omega

theorem Holds.validate {entries : List Entry} {t : AvailableGpuTiming} (h : Holds entries t) :
    t.validate.valid = true := by
  obtain ⟨x, y, z, hxyz⟩ := List.length_eq_three.mp h.length_stats
  have hframe := h.stats .kFrame
  have hcommand := h.stats .kCommandBuffer
  have hpass := h.stats .kRenderPass
  have hlen := length_entriesOf entries
  rw [hxyz] at hframe hcommand hpass
  simp only [ObjectType.index, List.getD_cons_zero, List.getD_cons_succ] at hframe hcommand hpass
  have hsum : (t.stats.map List.length).sum = t.orderedEntries.length := by
    rw [hxyz, h.orderedEntries, ← hlen, ← hframe, ← hcommand, ← hpass]
    simp
  rw [AvailableGpuTiming.validate, if_neg (not_not.mpr hsum)]

theorem loadLineIn_valid (t : AvailableGpuTiming) (row : ℕ) {line : List Char}
    (hline : line ≠ []) : (loadLineIn inRange t row line).1.valid = t.valid := by
  have hadd : ∀ objectType id stats,
      (t.addEntry row objectType id stats).1.valid = t.valid := by
    intro objectType id stats
    rw [AvailableGpuTiming.addEntry]
    split_ifs <;> rfl
  by_cases hrow : row = 0
  · rw [hrow, (loadLineIn_zero inRange t hline).1]
  · rw [loadLineIn_eq inRange t hrow hline]
    cases readRow inRange line with
    | none => rfl
    | some r => exact hadd _ _ _

theorem loadLinesIn_valid (lines : List (List Char)) (row : ℕ) (t : AvailableGpuTiming) :
    (loadLinesIn inRange lines row t).1.valid = t.valid := by
  induction lines generalizing row t with
  | nil => rfl
  | cons line lines ih =>
    rw [loadLinesIn]
    split_ifs with hline
    · exact ih _ _
    · have hvalid := loadLineIn_valid inRange t row hline
      cases hload : loadLineIn inRange t row line with
      | mk t' loaded =>
        rw [hload] at hvalid
        cases loaded with
        | false => exact hvalid
        | true => exact (ih _ _).trans hvalid

/-- **The texts that are accepted** by a new object; it is valid exactly after these. -/
theorem loadFromStringIn_iff (fullText : List Char) :
    ((loadFromStringIn inRange {} fullText).2 = true ↔
        LooseTable inRange (textLines fullText)) ∧
      (loadFromStringIn inRange {} fullText).1.valid =
        (loadFromStringIn inRange {} fullText).2 := by
  have hstart : Holds [] { loaded := true } :=
    ⟨rfl, rfl, fun objectType => by cases objectType <;> rfl⟩
  have hlines := loadLinesIn_iff inRange (textLines fullText)
    (fun line hline => of_decide_eq_true (List.mem_filter.mp hline).2) _ hstart
  have hvalid := loadLinesIn_valid inRange (textLines fullText) 0 { loaded := true }
  have hfilter := loadLinesIn_filter inRange (getlines '\n' fullText) 0 { loaded := true }
  rw [← textLines] at hfilter
  rw [← hfilter] at hlines hvalid
  rw [loadFromStringIn, if_neg Bool.false_ne_true, ← hlines.1]
  cases hload : loadLinesIn inRange (getlines '\n' fullText) 0 { loaded := true } with
  | mk t loaded =>
    rw [hload] at hlines hvalid
    cases loaded with
    | false => exact ⟨Iff.rfl, hvalid⟩
    | true =>
      have hholds := (hlines.2 rfl).validate
      exact ⟨iff_of_true hholds rfl, rfl⟩

end Range

end Dive.AvailableGpuTiming
