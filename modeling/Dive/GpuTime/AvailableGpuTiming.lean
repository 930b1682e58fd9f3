import Dive.Lib.Text

/-!
# Loading GPU timings from CSV text

* `AvailableGpuTiming.loadLineIn`, `AvailableGpuTiming.loadFromStringIn`: lines, fields, checks, with
  the range of `float`, which `inRange` tells; `loadFromString`: without it.
* `AvailableGpuTiming.getStatsByType`, `AvailableGpuTiming.getStatsByRow`.

A type is `none` where the source has `nObjectTypes`. Messages are left out.
-/

namespace Dive

open Text

namespace AvailableGpuTiming

inductive ObjectType
  | kFrame
  | kCommandBuffer
  | kRenderPass
  deriving DecidableEq

def ObjectType.index : ObjectType → ℕ
  | .kFrame => 0
  | .kCommandBuffer => 1
  | .kRenderPass => 2

def getObjectTypeString : ObjectType → String
  | .kFrame => "Frame"
  | .kCommandBuffer => "CommandBuffer"
  | .kRenderPass => "RenderPass"

def getObjectType (objectTypeStr : List Char) : Option ObjectType :=
  if objectTypeStr = "Frame".toList then some .kFrame
  else if objectTypeStr = "CommandBuffer".toList then some .kCommandBuffer
  else if objectTypeStr = "RenderPass".toList then some .kRenderPass
  else none

/-- `GetColumnTypeString` of each column. -/
def columnTypeStrings : List (List Char) :=
  ["Type".toList, "Id".toList, "Mean [ms]".toList, "Median [ms]".toList]

def getColumns : ℕ := columnTypeStrings.length

structure Entry where
  objectType : ObjectType
  perFrameId : ℕ
  deriving DecidableEq

structure Stats where
  meanMs : FloatValue
  medianMs : FloatValue
  deriving DecidableEq, Inhabited

end AvailableGpuTiming

structure AvailableGpuTiming where
  orderedEntries : List AvailableGpuTiming.Entry := []
  stats : List (List AvailableGpuTiming.Stats) := [[], [], []]
  totalFrames : ℕ := 0
  loaded : Bool := false
  valid : Bool := false

namespace AvailableGpuTiming

/-- The part of `LoadLine` behind the checks of the fields. -/
def addEntry (t : AvailableGpuTiming) (row : ℕ) (objectType : ObjectType) (id : ℕ) (stats : Stats) :
    AvailableGpuTiming × Bool :=
  let t := if objectType = .kFrame then { t with totalFrames := id } else t
  let entry : Entry := ⟨objectType, if objectType = .kFrame then 0 else id⟩
  if (t.stats.getD objectType.index []).length ≠ entry.perFrameId then (t, false)
  else
    let t := { t with
      stats := t.stats.modify objectType.index (· ++ [stats])
      orderedEntries := t.orderedEntries ++ [entry] }
    (t, decide (row = t.orderedEntries.length))

section Range

variable (inRange : ℚ → Bool)

/-- `std::stof`, where a finite value out of the range of `float` is an exception. -/
def stofIn (l : List Char) : Except ParseError FloatValue :=
  match stof l with
  | .ok (.finite q) => if inRange q then .ok (.finite q) else .error .outOfRange
  | .ok v => .ok v
  | .error e => .error e

/-- `LoadLine`; an `int` becomes a `uint32_t`. -/
def loadLineIn (t : AvailableGpuTiming) (row : ℕ) (line : List Char) : AvailableGpuTiming × Bool :=
  let fields := getlines ',' line
  if fields.length = 0 then (t, true)
  else if fields.length ≠ getColumns then (t, false)
  else if row = 0 then (t, decide (fields = columnTypeStrings))
  else
    match stoi (fields.getD 1 []), stofIn inRange (fields.getD 2 []),
      stofIn inRange (fields.getD 3 []) with
    | .ok id, .ok meanMs, .ok medianMs =>
      if '.' ∈ fields.getD 1 [] then (t, false)
      else if '.' ∉ fields.getD 2 [] then (t, false)
      else if '.' ∉ fields.getD 3 [] then (t, false)
      else
        match getObjectType (fields.getD 0 []) with
        | none => (t, false)
        | some objectType => t.addEntry row objectType (id % 2 ^ 32).toNat ⟨meanMs, medianMs⟩
    | _, _, _ => (t, false)

/-- The loop of `LoadFromStream`; `row` is a `uint32_t`. -/
def loadLinesIn : List (List Char) → ℕ → AvailableGpuTiming → AvailableGpuTiming × Bool
  | [], _, t => (t, true)
  | line :: lines, row, t =>
    if line = [] then loadLinesIn lines row t
    else
      match loadLineIn inRange t row line with
      | (t, false) => (t, false)
      | (t, true) => loadLinesIn lines ((row + 1) % 2 ^ 32) t

def validate (t : AvailableGpuTiming) : AvailableGpuTiming :=
  if (t.stats.map List.length).sum ≠ t.orderedEntries.length then t else { t with valid := true }

/-- `LoadFromString`. -/
def loadFromStringIn (t : AvailableGpuTiming) (fullText : List Char) : AvailableGpuTiming × Bool :=
  if t.loaded then (t, false)
  else
    match loadLinesIn inRange (getlines '\n' fullText) 0 { t with loaded := true } with
    | (t, false) => (t, false)
    | (t, true) => (t.validate, t.validate.valid)

end Range

/-- `LoadFromString` without the range of `float`. -/
abbrev loadFromString : AvailableGpuTiming → List Char → AvailableGpuTiming × Bool :=
  loadFromStringIn fun _ => true

def getStatsByType (t : AvailableGpuTiming) (objectType : ObjectType) (objectId : ℕ) :
    Option Stats :=
  if t.valid = false then none
  else if t.stats.length ≤ objectType.index then none
  else (t.stats.getD objectType.index [])[objectId]?

def getStatsByRow (t : AvailableGpuTiming) (rowId : ℕ) : Option Stats :=
  if t.valid = false then none
  else if rowId < 1 ∨ t.orderedEntries.length < rowId then none
  else
    match t.orderedEntries[rowId - 1]? with
    | none => none
    | some entry => t.getStatsByType entry.objectType entry.perFrameId

/-! ## Rows of numbered objects -/

/-- A row: an object with its number and its times. -/
structure Row where
  objectType : ObjectType
  id : ℕ
  average : ℚ
  median : ℚ

namespace Row

/-- The line of a row, without its end. -/
def line (r : Row) : List Char :=
  (getObjectTypeString r.objectType).toList ++ ',' :: (toText r.id ++ ',' ::
    (fixedText 3 r.average ++ ',' :: fixedText 3 r.median))

def perFrameId (r : Row) : ℕ := if r.objectType = .kFrame then 0 else r.id

def entry (r : Row) : Entry := ⟨r.objectType, r.perFrameId⟩

/-- The times as they are written. -/
def stats (r : Row) : Stats := ⟨.finite (fixedValue 3 r.average), .finite (fixedValue 3 r.median)⟩

end Row

/-- The rows of one type. -/
def ofType (rows : List Row) (objectType : ObjectType) : List Row :=
  rows.filter fun r => r.objectType = objectType

/-- The objects of each type are numbered in order. -/
def Numbered (rows : List Row) : Prop :=
  ∀ objectType, (ofType rows objectType).map Row.perFrameId =
    List.range (ofType rows objectType).length

/-- What is loaded after some rows. -/
def afterRows (rows : List Row) : AvailableGpuTiming where
  orderedEntries := rows.map Row.entry
  stats := [(ofType rows .kFrame).map Row.stats, (ofType rows .kCommandBuffer).map Row.stats,
    (ofType rows .kRenderPass).map Row.stats]
  totalFrames := ((ofType rows .kFrame).getLast?.map Row.id).getD 0
  loaded := true

variable {rows done rest : List Row} {r : Row}

theorem ofType_append (rows rows' : List Row) (objectType : ObjectType) :
    ofType (rows ++ rows') objectType = ofType rows objectType ++ ofType rows' objectType :=
  List.filter_append rows rows'

theorem ofType_singleton (r : Row) (objectType : ObjectType) :
    ofType [r] objectType = if r.objectType = objectType then [r] else [] := by
  by_cases h : r.objectType = objectType <;> simp [ofType, h]

theorem stats_afterRows (rows : List Row) (objectType : ObjectType) :
    (afterRows rows).stats.getD objectType.index [] = (ofType rows objectType).map Row.stats := by
  cases objectType <;> rfl

/-- **The number of a row** is the number of rows of its type before it. -/
theorem Numbered.perFrameId_eq (h : Numbered (done ++ r :: rest)) :
    r.perFrameId = (ofType done r.objectType).length := by
  have hmap := h r.objectType
  rw [ofType_append, ← List.singleton_append, ofType_append, ofType_singleton, if_pos rfl] at hmap
  have hget := congrArg (·[(ofType done r.objectType).length]?) hmap
  simpa using hget

theorem index_lt (objectType : ObjectType) : objectType.index < 3 := by
  cases objectType <;> decide

/-- **A row that has its number is added.** -/
theorem addEntry_afterRows (hid : r.perFrameId = (ofType done r.objectType).length)
    (row : ℕ) :
    (afterRows done).addEntry row r.objectType r.id r.stats =
      (afterRows (done ++ [r]), decide (row = done.length + 1)) := by
  have hlen : ((afterRows done).stats.getD r.objectType.index []).length = r.perFrameId := by
    rw [stats_afterRows, List.length_map, hid]
  have hmodify : (afterRows done).stats.modify r.objectType.index (· ++ [r.stats]) =
      (afterRows (done ++ [r])).stats := by
    simp only [afterRows, ofType_append, ofType_singleton]
    cases r.objectType <;> simp [ObjectType.index, List.modify]
  have hentries : (afterRows done).orderedEntries ++ [r.entry] =
      (afterRows (done ++ [r])).orderedEntries := by
    simp [afterRows]
  have hdone : ({ afterRows done with
      totalFrames := (afterRows (done ++ [r])).totalFrames
      stats := (afterRows done).stats.modify r.objectType.index (· ++ [r.stats])
      orderedEntries := (afterRows done).orderedEntries ++ [r.entry] } : AvailableGpuTiming) =
      afterRows (done ++ [r]) := by
    rw [hmodify, hentries]
    rfl
  have hlength : (afterRows (done ++ [r])).orderedEntries.length = done.length + 1 := by
    simp [afterRows]
  rw [addEntry]
  by_cases hframe : r.objectType = .kFrame
  · have htotal : (afterRows (done ++ [r])).totalFrames = r.id := by
      simp [afterRows, ofType_append, ofType_singleton, hframe]
    rw [htotal] at hdone
    simp only [hframe, if_true] at hlen hdone ⊢
    rw [Row.perFrameId, if_pos hframe] at hlen
    have hentry : r.entry = ⟨.kFrame, 0⟩ := by rw [Row.entry, Row.perFrameId, hframe]; rfl
    rw [hentry] at hdone hentries
    rw [if_neg (not_not.mpr hlen), hdone, hentries, hlength]
  · have htotal : (afterRows (done ++ [r])).totalFrames = (afterRows done).totalFrames := by
      simp [afterRows, ofType_append, ofType_singleton, hframe]
    rw [htotal] at hdone
    have hentry : r.entry = ⟨r.objectType, r.id⟩ := by
      rw [Row.entry, Row.perFrameId, if_neg hframe]
    rw [Row.perFrameId, if_neg hframe] at hlen
    rw [hentry] at hdone hentries
    simp only [hframe, if_false]
    rw [if_neg (not_not.mpr hlen), hdone, hentries, hlength]

theorem mem_typeString {objectType : ObjectType} {c : Char}
    (h : c ∈ (getObjectTypeString objectType).toList) : c ≠ ',' ∧ c ≠ '\n' := by
  have hall : (getObjectTypeString objectType).toList.all (fun c => c ≠ ',' ∧ c ≠ '\n') = true := by
    cases objectType <;> decide
  exact of_decide_eq_true (List.all_eq_true.mp hall c h)

theorem notMem_toText {n : ℕ} {d : Char} (h : d = ',' ∨ d = '\n' ∨ d = '.') : d ∉ toText n := by
  intro hmem
  have hdigit := ne_of_isDigit (isDigit_of_mem_toText hmem)
  rcases h with rfl | rfl | rfl
  · exact hdigit.1 rfl
  · exact hdigit.2.1 rfl
  · exact hdigit.2.2.1 rfl

theorem notMem_fixedText {p : ℕ} {q : ℚ} {d : Char} (h : d = ',' ∨ d = '\n') :
    d ∉ fixedText p q := by
  intro hmem
  rcases mem_fixedText hmem with rfl | rfl | hdigit
  · rcases h with h | h <;> cases h
  · rcases h with h | h <;> cases h
  · rcases h with rfl | rfl
    · exact (ne_of_isDigit hdigit).1 rfl
    · exact (ne_of_isDigit hdigit).2.1 rfl

/-- **The fields of a line.** -/
theorem getlines_line (r : Row) :
    getlines ',' r.line = [(getObjectTypeString r.objectType).toList, toText r.id,
      fixedText 3 r.average, fixedText 3 r.median] := by
  have hmedian : fixedText 3 r.median ≠ [] := List.ne_nil_of_mem (point_mem_fixedText 3 r.median)
  rw [Row.line, getlines_append _ fun h => (mem_typeString h).1 rfl,
    getlines_append _ (notMem_toText (.inl rfl)), getlines_append _ (notMem_fixedText (.inl rfl)),
    getlines_of_notMem _ (notMem_fixedText (.inl rfl)) hmedian]

theorem newline_notMem_line (r : Row) : '\n' ∉ r.line := by
  simp only [Row.line, List.mem_append, List.mem_cons, not_or]
  exact ⟨fun h => (mem_typeString h).2 rfl, by decide, notMem_toText (.inr (.inl rfl)), by decide,
    notMem_fixedText (.inr rfl), by decide, notMem_fixedText (.inr rfl)⟩

theorem line_ne_nil (r : Row) : r.line ≠ [] := by
  simp [Row.line]

theorem stofIn_true (l : List Char) : stofIn (fun _ => true) l = stof l := by
  unfold stofIn
  split <;> simp_all

/-- **A line is a row**, if its number is in range and it is not taken for the header. -/
theorem loadLineIn_line (t : AvailableGpuTiming) (row : ℕ) (r : Row) :
    loadLineIn (fun _ => true) t row r.line =
      if row ≠ 0 ∧ r.id < 2 ^ 31 then t.addEntry row r.objectType r.id r.stats else (t, false) := by
  have htype : getObjectType (getObjectTypeString r.objectType).toList = some r.objectType := by
    cases r.objectType <;> decide
  have hheader : (getObjectTypeString r.objectType).toList ≠ "Type".toList := by
    cases r.objectType <;> decide
  rw [loadLineIn]
  simp only [getlines_line, stofIn_true]
  rw [if_neg (by simp), if_neg (by simp [getColumns, columnTypeStrings])]
  by_cases hrow : row = 0
  · have hfields : [(getObjectTypeString r.objectType).toList, toText r.id, fixedText 3 r.average,
        fixedText 3 r.median] ≠ columnTypeStrings := fun h => hheader (List.cons.inj h).1
    rw [if_pos hrow, if_neg (fun h => h.1 hrow), decide_eq_false hfields]
  · rw [if_neg hrow]
    simp only [List.getD_cons_succ, List.getD_cons_zero]
    rw [stoi_toText, stof_fixedText, stof_fixedText]
    by_cases hid : r.id < 2 ^ 31
    · have hmod : ((r.id : ℤ) % 2 ^ 32).toNat = r.id := by omega
      have hpoint : '.' ∉ toText r.id := notMem_toText (.inr (.inr rfl))
      have hpoints := point_mem_fixedText 3
      rw [if_pos hid, if_pos ⟨hrow, hid⟩]
      simp only [hpoint, hpoints, htype, hmod, if_false, not_true_eq_false]
      rfl
    · rw [if_neg hid, if_neg (fun h => hid h.2)]

/-- **The lines of numbered rows** are all loaded, as long as the numbers of the objects and of the
lines are in range. -/
theorem loadLinesIn_rows (rest : List Row) : ∀ done : List Row, Numbered (done ++ rest) →
    done.length < 2 ^ 32 →
      ((∀ r ∈ rest, r.id < 2 ^ 31) ∧ done.length + rest.length < 2 ^ 32 →
        loadLinesIn (fun _ => true) (rest.map Row.line) ((done.length + 1) % 2 ^ 32)
          (afterRows done) = (afterRows (done ++ rest), true)) ∧
      (¬ ((∀ r ∈ rest, r.id < 2 ^ 31) ∧ done.length + rest.length < 2 ^ 32) →
        (loadLinesIn (fun _ => true) (rest.map Row.line) ((done.length + 1) % 2 ^ 32)
          (afterRows done)).2 = false) := by
  induction rest with
  | nil =>
    intro done _ hdone
    refine ⟨fun _ => by rw [List.append_nil]; rfl, fun h => absurd ⟨by simp, ?_⟩ h⟩
    simpa using hdone
  | cons r rest ih =>
    intro done h hdone
    have hstep : loadLinesIn (fun _ => true) ((r :: rest).map Row.line)
        ((done.length + 1) % 2 ^ 32) (afterRows done) =
        match loadLineIn (fun _ => true) (afterRows done) ((done.length + 1) % 2 ^ 32) r.line with
        | (t, false) => (t, false)
        | (t, true) => loadLinesIn (fun _ => true) (rest.map Row.line)
            (((done.length + 1) % 2 ^ 32 + 1) % 2 ^ 32) t := by
      rw [List.map_cons, loadLinesIn, if_neg (line_ne_nil r)]
    rw [hstep, loadLineIn_line, List.length_cons]
    by_cases hfits : done.length + 1 < 2 ^ 32 ∧ r.id < 2 ^ 31
    · have hmod : (done.length + 1) % 2 ^ 32 = done.length + 1 := Nat.mod_eq_of_lt hfits.1
      have hlen : (done ++ [r]).length = done.length + 1 := by simp
      have hrest := ih (done ++ [r]) (by rwa [List.append_assoc]) (by rw [hlen]; exact hfits.1)
      rw [hlen, List.append_assoc, List.singleton_append] at hrest
      rw [hmod, if_pos ⟨by omega, hfits.2⟩, addEntry_afterRows h.perFrameId_eq, decide_eq_true rfl]
      simp only [List.forall_mem_cons, hfits.2, true_and]
      rw [Nat.add_right_comm, Nat.add_assoc] at hrest
      exact hrest
    · refine ⟨fun hall => absurd ⟨by omega, hall.1 r List.mem_cons_self⟩ hfits, fun _ => ?_⟩
      have hfalse : ¬ ((done.length + 1) % 2 ^ 32 ≠ 0 ∧ r.id < 2 ^ 31) := by
        rintro ⟨hrow, hid⟩
        have : done.length + 1 = 2 ^ 32 := by
          by_contra hne
          exact hfits ⟨by omega, hid⟩
        rw [this, Nat.mod_self] at hrow
        exact hrow rfl
      rw [if_neg hfalse]

/-- The header of the text. -/
def header : List Char := "Type,Id,Mean [ms],Median [ms]".toList

theorem loadLineIn_header (t : AvailableGpuTiming) :
    loadLineIn (fun _ => true) t 0 header = (t, true) := by
  have hfields : getlines ',' header = columnTypeStrings := by decide
  rw [loadLineIn]
  simp only [hfields]
  rfl

theorem getlines_rows (rows : List Row) :
    getlines '\n' (rows.flatMap fun r => r.line ++ ['\n']) = rows.map Row.line := by
  induction rows with
  | nil => rfl
  | cons r rows ih =>
    rw [List.flatMap_cons, List.append_assoc, List.singleton_append,
      getlines_append _ (newline_notMem_line r), ih, List.map_cons]

theorem length_ofType (rows : List Row) :
    (ofType rows .kFrame).length + ((ofType rows .kCommandBuffer).length +
      (ofType rows .kRenderPass).length) = rows.length := by
  induction rows with
  | nil => rfl
  | cons r rows ih =>
    have hcons : ∀ objectType, ofType (r :: rows) objectType =
        ofType [r] objectType ++ ofType rows objectType := fun _ => ofType_append [r] rows _
    simp only [hcons, ofType_singleton, List.length_cons]
    cases r.objectType <;> simp <;> omega

/-- What is loaded from rows. -/
def ofRows (rows : List Row) : AvailableGpuTiming := { afterRows rows with valid := true }

theorem validate_afterRows (rows : List Row) : (afterRows rows).validate = ofRows rows := by
  have hsum : ((afterRows rows).stats.map List.length).sum =
      (afterRows rows).orderedEntries.length := by
    have := length_ofType rows
    simpa [afterRows] using this
  rw [validate, if_neg (not_not.mpr hsum)]
  rfl

/-- **The text of numbered rows** is accepted exactly when all numbers are in range. -/
theorem loadFromString_rows (h : Numbered rows) :
    ((∀ r ∈ rows, r.id < 2 ^ 31) ∧ rows.length < 2 ^ 32 →
      loadFromString {} (header ++ '\n' :: rows.flatMap fun r => r.line ++ ['\n']) =
        (ofRows rows, true)) ∧
    (¬ ((∀ r ∈ rows, r.id < 2 ^ 31) ∧ rows.length < 2 ^ 32) →
      (loadFromString {} (header ++ '\n' :: rows.flatMap fun r => r.line ++ ['\n'])).2 =
        false) := by
  have hnewline : '\n' ∉ header := by decide
  have hne : header ≠ [] := by decide
  have hlines : loadLinesIn (fun _ => true)
      (getlines '\n' (header ++ '\n' :: rows.flatMap fun r => r.line ++ ['\n'])) 0
        { loaded := true } = loadLinesIn (fun _ => true) (rows.map Row.line) 1 (afterRows []) := by
    rw [getlines_append _ hnewline, getlines_rows, loadLinesIn, if_neg hne, loadLineIn_header]
    rfl
  have hrows := loadLinesIn_rows rows [] h (by simp)
  simp only [List.length_nil, Nat.zero_add, List.nil_append] at hrows
  rw [loadFromString, loadFromStringIn, if_neg (by simp), hlines]
  constructor
  · intro hfits
    have hload := hrows.1 hfits
    rw [Nat.mod_eq_of_lt (by norm_num)] at hload
    rw [hload]
    simp only [validate_afterRows]
    rfl
  · intro hfits
    have hload := hrows.2 hfits
    rw [Nat.mod_eq_of_lt (by norm_num)] at hload
    generalize loadLinesIn (fun _ => true) (rows.map Row.line) 1 (afterRows []) = result at hload
    obtain ⟨t, b⟩ := result
    obtain rfl : b = false := hload
    rfl

/-- **Each row is found** by its type and number, and by its place. -/
theorem getStats_ofRows (h : Numbered rows) {i : ℕ} (hi : i < rows.length) :
    (ofRows rows).getStatsByType rows[i].objectType rows[i].perFrameId = some rows[i].stats ∧
      (ofRows rows).getStatsByRow (i + 1) = some rows[i].stats := by
  have hsplit : rows = rows.take i ++ rows[i] :: rows.drop (i + 1) := by
    rw [← List.drop_eq_getElem_cons hi, List.take_append_drop]
  have hid : rows[i].perFrameId = (ofType (rows.take i) rows[i].objectType).length := by
    rw [hsplit] at h
    exact h.perFrameId_eq
  have hget : ((ofType rows rows[i].objectType).map Row.stats)[rows[i].perFrameId]? =
      some rows[i].stats := by
    have hrows : ofType rows rows[i].objectType = ofType (rows.take i) rows[i].objectType ++
        rows[i] :: ofType (rows.drop (i + 1)) rows[i].objectType := by
      have htypes := congrArg (fun l => ofType l rows[i].objectType) hsplit
      rwa [ofType_append, ← List.singleton_append, ofType_append, ofType_singleton, if_pos rfl,
        List.singleton_append] at htypes
    rw [hid, hrows]
    simp
  have htype : (ofRows rows).getStatsByType rows[i].objectType rows[i].perFrameId =
      some rows[i].stats := by
    have hindex : ¬ (ofRows rows).stats.length ≤ rows[i].objectType.index :=
      not_le.mpr (index_lt _)
    rw [getStatsByType, if_neg (by simp [ofRows]), if_neg hindex]
    show ((afterRows rows).stats.getD _ [])[_]? = _
    rw [stats_afterRows, hget]
  refine ⟨htype, ?_⟩
  have hentries : (ofRows rows).orderedEntries = rows.map Row.entry := rfl
  rw [getStatsByRow, if_neg (by simp [ofRows]), if_neg (by rw [hentries, List.length_map]; omega),
    hentries, Nat.add_sub_cancel, List.getElem?_map, List.getElem?_eq_getElem hi]
  exact htype

end AvailableGpuTiming

end Dive
