import Dive.Gfxr.Edits

/-!
# Failed edits and undone edits

* `Modifications.Allows`, `Modifications.apply`: when an edit is possible on a map of
  modifications, and the map after it; `report`: the flag that the operation returns.
* `Indistinguishable`: no operation, traversal or new file tells two objects apart, now or after
  further edits; `SameView.indistinguishable`: the original blocks and the lookups decide it.
* **`edited_algebra`**: after any history of edits the modifications are those of the map updated
  by the successful edits, a failed edit changes nothing, and removing what was added undoes it.
-/

namespace Dive

/-- The ids can be added or removed: what is added has no modification yet, belongs to a block of
the file, and is no deletion beside the block; what is removed is there. -/
def Modifications.Allows (n : ℕ) (m : Modifications) : Edit → Prop
  | .add p q b => m p q = none ∧ p.toNat < n ∧ (b = none → q = 0)
  | .remove p q => (m p q).isSome
  | .clear => True

/-- The map after a successful edit. -/
def Modifications.apply (m : Modifications) : Edit → Modifications
  | .add p q b => m.set p q (some b)
  | .remove p q => m.set p q none
  | .clear => fun _ _ => none

@[simp]
theorem Modifications.set_set (m : Modifications) (p : UInt32) (q : Int32)
    (b b' : Option (Option BlobPtr)) : (m.set p q b).set p q b' = m.set p q b' := by
  funext p' q'
  simp only [Modifications.set]
  split_ifs <;> rfl

theorem Modifications.set_of_eq {m : Modifications} {p : UInt32} {q : Int32}
    {b : Option (Option BlobPtr)} (h : m p q = b) : m.set p q b = m := by
  funext p' q'
  simp only [Modifications.set]
  split_ifs with hpq
  · rw [hpq.1, hpq.2, h]
  · rfl

@[simp]
theorem Modifications.set_self (m : Modifications) (p : UInt32) (q : Int32)
    (b : Option (Option BlobPtr)) : m.set p q b p q = b := by
  simp [Modifications.set]

namespace DiveBlockData

variable {d d' : DiveBlockData}

/-- The flag that an edit returns; clearing does not fail. -/
def report (d : DiveBlockData) : Edit → Bool
  | .add p q b => (d.addModification p q b).1
  | .remove p q => (d.removeModification p q).1
  | .clear => true

/-- The edits of the history that succeed. -/
def successful : DiveBlockData → List Edit → List Edit
  | _, [] => []
  | d, e :: edits =>
    if d.report e then e :: (d.edit e).successful edits else (d.edit e).successful edits

/-! ## One edit -/

/-- **An edit succeeds** exactly when the modifications in force allow it. -/
theorem report_iff (hlocked : d.originalBlocksMapLocked = true) (e : Edit) :
    d.report e = true ↔ d.lookup.Allows d.originalBlocksMap.length e := by
  cases e with
  | add p q b =>
    simp only [report, addModification, Modifications.Allows, modificationExists_eq, hlocked]
    by_cases hsome : d.lookup p q = none
    · by_cases hlen : d.originalBlocksMap.length ≤ p.toNat
      · simp [hsome, hlen]
      · cases b with
        | none =>
          by_cases hq : q = 0
          · subst hq
            simp [hsome, hlen, Nat.lt_of_not_le hlen]
          · simp [hsome, hlen, hq]
        | some b => simp [hsome, hlen, Nat.lt_of_not_le hlen]
    · have hthere : (d.lookup p q).isSome = true := Option.isSome_iff_ne_none.mpr hsome
      simp [hthere, hsome]
  | remove p q =>
    simp only [report, removeModification, Modifications.Allows, modificationExists_eq]
    cases (d.lookup p q).isSome <;> simp
  | clear => simp [report, Modifications.Allows]

/-- **A failed edit** leaves the object as it was. -/
theorem edit_of_report_eq_false {e : Edit} (h : d.report e = false) : d.edit e = d := by
  cases e with
  | add p q b =>
    cases b with
    | none =>
      simp only [report, edit, addModification] at h ⊢
      split_ifs at h ⊢ <;> rfl
    | some b =>
      simp only [report, edit, addModification] at h ⊢
      split_ifs at h ⊢ <;> rfl
  | remove p q =>
    simp only [report, edit, removeModification] at h ⊢
    split_ifs at h ⊢
    rfl
  | clear => simp [report] at h

theorem lookup_edit_of_report (hlocked : d.originalBlocksMapLocked = true) {e : Edit}
    (h : d.report e = true) : (d.edit e).lookup = d.lookup.apply e := by
  rw [lookup_edit hlocked]
  rw [report_iff hlocked] at h
  cases e with
  | add p q b =>
    have hno : ¬ ((d.lookup p q).isSome ∨ d.originalBlocksMap.length ≤ p.toNat ∨
        b = none ∧ q ≠ 0) := by
      rintro (hsome | hle | ⟨hb, hq⟩)
      · simp [h.1] at hsome
      · exact absurd h.2.1 (Nat.not_lt.mpr hle)
      · exact hq (h.2.2 hb)
    rw [Modifications.edit, if_neg hno]
    rfl
  | remove p q => rfl
  | clear => rfl

theorem lookup_edited_successful (hlocked : d.originalBlocksMapLocked = true)
    (edits : List Edit) :
    (d.edited edits).lookup = (d.successful edits).foldl Modifications.apply d.lookup := by
  induction edits generalizing d with
  | nil => rfl
  | cons e edits ih =>
    have hlock : (d.edit e).originalBlocksMapLocked = true := (edit_frame e).2.2.trans hlocked
    have hrest := ih hlock
    rw [successful]
    cases h : d.report e with
    | true =>
      rw [if_pos rfl, List.foldl_cons, ← lookup_edit_of_report hlocked h]
      exact hrest
    | false =>
      rw [if_neg Bool.false_ne_true]
      rw [edit_of_report_eq_false h] at hrest ⊢
      rw [← hrest]
      simp only [edited, List.foldl_cons, edit_of_report_eq_false h]

/-! ## What traversals and new files tell apart -/

/-- The original blocks are the same, and the modifications by id. -/
structure SameView (d d' : DiveBlockData) : Prop where
  blocks : d.originalBlocksMap = d'.originalBlocksMap
  header : d.originalHeaderBlock = d'.originalHeaderBlock
  locked : d.originalBlocksMapLocked = d'.originalBlocksMapLocked
  lookup : d.lookup = d'.lookup

/-- Whatever edits follow, no flag, no traversal and no new file tells the objects apart. -/
def Indistinguishable (d d' : DiveBlockData) : Prop :=
  ∀ edits : List Edit,
    (∀ e, (d.edited edits).report e = (d'.edited edits).report e) ∧
      (∀ p q, (d.edited edits).modificationExists p q = (d'.edited edits).modificationExists p q) ∧
      (∀ (S : Type) (v : BlockVisitor S) (s : S),
        (d.edited edits).traverseBlocks v s = (d'.edited edits).traverseBlocks v s) ∧
      ∀ (original : DiskFile) (blobs : BlobPtr → List UInt8),
        (d.edited edits).writeGFXRFile original blobs =
          (d'.edited edits).writeGFXRFile original blobs

namespace SameView

variable (h : SameView d d')
include h

theorem report (hlocked : d.originalBlocksMapLocked = true) (e : Edit) :
    d.report e = d'.report e := by
  rw [Bool.eq_iff_iff, report_iff hlocked, report_iff (h.locked.symm.trans hlocked), h.lookup,
    h.blocks]

theorem edit (hlocked : d.originalBlocksMapLocked = true) (e : Edit) :
    SameView (d.edit e) (d'.edit e) := by
  have hframe := @edit_frame d e
  have hframe' := @edit_frame d' e
  refine ⟨?_, ?_, ?_, ?_⟩
  · rw [hframe.1, hframe'.1, h.blocks]
  · rw [hframe.2.1, hframe'.2.1, h.header]
  · rw [hframe.2.2, hframe'.2.2, h.locked]
  · rw [lookup_edit hlocked, lookup_edit (h.locked.symm.trans hlocked), h.lookup, h.blocks]

theorem edited (hlocked : d.originalBlocksMapLocked = true) (edits : List Edit) :
    SameView (d.edited edits) (d'.edited edits) := by
  induction edits generalizing d d' with
  | nil => exact h
  | cons e edits ih => exact ih (h.edit hlocked e) ((edit_frame e).2.2.trans hlocked)

theorem toList_blocksToWrite (primaryId : ℕ) (block : DiveOriginalBlock) :
    (d.blocksToWrite primaryId block).toList = (d'.blocksToWrite primaryId block).toList := by
  have hordered : ∀ m : Std.TreeMap Int32 (Option IDiveBlock),
      m.toList.Pairwise fun a b => a.1 < b.1 := fun m =>
    Std.TreeMap.ordered_keys_toList.imp fun hlt => Std.compare_eq_lt.mp hlt
  apply eq_of_pairwise_lt (hordered _) (hordered _)
  rintro ⟨q, b⟩
  rw [Std.TreeMap.mem_toList_iff_getElem?_eq_some, Std.TreeMap.mem_toList_iff_getElem?_eq_some,
    getElem?_blocksToWrite _ rfl, getElem?_blocksToWrite _ rfl, h.lookup]

theorem traverseFrom {S : Type} (v : BlockVisitor S) (primaryId : ℕ)
    (blocks : List DiveOriginalBlock) (s : S) :
    d.traverseFrom v primaryId blocks s = d'.traverseFrom v primaryId blocks s := by
  induction blocks generalizing primaryId s with
  | nil => rfl
  | cons block blocks ih =>
    simp only [DiveBlockData.traverseFrom, h.toList_blocksToWrite, ih]

theorem traverseBlocks {S : Type} (v : BlockVisitor S) (s : S) :
    d.traverseBlocks v s = d'.traverseBlocks v s := by
  simp only [DiveBlockData.traverseBlocks, h.blocks, h.traverseFrom]

theorem writeGFXRFile (original : DiskFile) (blobs : BlobPtr → List UInt8) :
    d.writeGFXRFile original blobs = d'.writeGFXRFile original blobs := by
  simp only [DiveBlockData.writeGFXRFile, h.locked, h.header, h.traverseBlocks]

/-- **The original blocks and the lookups** are all that can be observed. -/
theorem indistinguishable (hlocked : d.originalBlocksMapLocked = true) :
    Indistinguishable d d' := by
  intro edits
  have hedited := h.edited hlocked edits
  have hlock : (d.edited edits).originalBlocksMapLocked = true :=
    (lookup_edited hlocked edits).2.2.2
  refine ⟨hedited.report hlock, ?_, fun S v s => hedited.traverseBlocks v s,
    hedited.writeGFXRFile⟩
  intro p q
  rw [modificationExists_eq, modificationExists_eq, hedited.lookup]

end SameView

/-! ## Undo -/

theorem undo_add (hlocked : d.originalBlocksMapLocked = true) {p : UInt32} {q : Int32}
    {b : Option BlobPtr} (h : d.report (.add p q b) = true) :
    (d.edit (.add p q b)).report (.remove p q) = true ∧
      SameView ((d.edit (.add p q b)).edit (.remove p q)) d := by
  have hadd : (d.edit (.add p q b)).lookup = d.lookup.set p q (some b) :=
    lookup_edit_of_report hlocked h
  have hframe := @edit_frame d (.add p q b)
  have hframe' := @edit_frame (d.edit (.add p q b)) (.remove p q)
  have hlock := hframe.2.2.trans hlocked
  have hfree : d.lookup p q = none := ((report_iff hlocked _).mp h).1
  have hremove : (d.edit (.add p q b)).report (.remove p q) = true := by
    rw [report_iff hlock, hadd]
    simp [Modifications.Allows]
  refine ⟨hremove, hframe'.1.trans hframe.1, hframe'.2.1.trans hframe.2.1,
    hframe'.2.2.trans hframe.2.2, ?_⟩
  rw [lookup_edit_of_report hlock hremove, hadd]
  exact (Modifications.set_set _ p q _ _).trans (Modifications.set_of_eq hfree)

/-- **The algebra of the modifications.** After any history of edits of a finalized object, the
modifications are those of the map updated by the edits that succeed. The next edit succeeds exactly
when the map allows it; a failed one changes nothing; and removing a modification that was just
added succeeds and leaves an object that nothing tells apart from the one before. -/
theorem edited_algebra (d : DiveBlockData) (hlocked : d.originalBlocksMapLocked = true)
    (edits : List Edit) :
    (d.edited edits).lookup = (d.successful edits).foldl Modifications.apply d.lookup ∧
      (∀ e, (d.edited edits).report e = true ↔
        (d.edited edits).lookup.Allows d.originalBlocksMap.length e) ∧
      (∀ e, (d.edited edits).report e = false → (d.edited edits).edit e = d.edited edits) ∧
      ∀ p q b, (d.edited edits).report (.add p q b) = true →
        ((d.edited edits).edit (.add p q b)).report (.remove p q) = true ∧
          Indistinguishable (((d.edited edits).edit (.add p q b)).edit (.remove p q))
            (d.edited edits) := by
  obtain ⟨-, hmap, -, hlock⟩ := lookup_edited hlocked edits
  refine ⟨lookup_edited_successful hlocked edits, ?_, fun e h => edit_of_report_eq_false h, ?_⟩
  · intro e
    rw [report_iff hlock, hmap]
  · intro p q b h
    obtain ⟨hremove, hview⟩ := undo_add hlock h
    exact ⟨hremove, hview.indistinguishable (hview.locked.trans hlock)⟩

/-- Two blocks, the first of which is deleted and restored. -/
theorem edited_algebra_twoBlocks :
    let d : DiveBlockData :=
      { originalBlocksMap := [⟨4, 2⟩, ⟨6, 3⟩], originalBlocksMapLocked := true }
    d.report (.add 0 0 none) = true ∧
      Indistinguishable ((d.edit (.add 0 0 none)).edit (.remove 0 0)) d := by
  intro d
  have hadd : d.report (.add 0 0 none) = true := by decide +kernel
  exact ⟨hadd, ((edited_algebra d rfl []).2.2.2 0 0 none hadd).2⟩

end DiveBlockData

end Dive
