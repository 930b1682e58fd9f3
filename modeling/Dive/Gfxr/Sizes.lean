import Dive.Gfxr.BlockData

/-!
# The sizes of the original blocks

* `InOrder`, `Sized`: the blocks start one after the other, and each ends where the next starts, the
  last at the end of the file.
* `setSizes_fst_iff`, `setSizes_spec`: the loop fails exactly at a block out of order, and gives
  blocks in order their sizes if the last one starts inside the file.
* **`finalize_exact_iff`**: the sizes are exact, and bad offsets are refused, unless the offsets are
  in order and the last one is past the end of the file.
-/

namespace Dive

/-- No block starts after the next one. -/
abbrev InOrder (blocks : List DiveOriginalBlock) : Prop :=
  blocks.IsChain fun block next => block.offset ≤ next.offset

/-- Each block ends where the next one starts, the last at the end of the file: no size is a
difference that wrapped around. -/
def Sized (fileSize : UInt64) : List DiveOriginalBlock → Prop
  | [] => True
  | [last] => last.offset.toNat + last.size.toNat = fileSize.toNat
  | block :: next :: blocks =>
    block.offset.toNat + block.size.toNat = next.offset.toNat ∧ Sized fileSize (next :: blocks)

variable {fileSize : UInt64} {blocks : List DiveOriginalBlock}

/-! ## Blocks with exact sizes -/

theorem Sized.tail {block : DiveOriginalBlock} (h : Sized fileSize (block :: blocks)) :
    Sized fileSize blocks := by
  cases blocks with
  | nil => exact trivial
  | cons next blocks => exact h.2

theorem Sized.total {block : DiveOriginalBlock} (h : Sized fileSize (block :: blocks)) :
    block.offset.toNat + ((block :: blocks).map (·.size.toNat)).sum = fileSize.toNat := by
  induction blocks generalizing block with
  | nil => simpa [Sized] using h
  | cons next blocks ih =>
    have hrest := ih (Sized.tail h)
    have hends := h.1
    rw [List.map_cons, List.sum_cons]
    omega

theorem Sized.le_fileSize (h : Sized fileSize blocks) {block : DiveOriginalBlock}
    (hmem : block ∈ blocks) : block.offset.toNat + block.size.toNat ≤ fileSize.toNat := by
  induction blocks with
  | nil => simp at hmem
  | cons first blocks ih =>
    rcases List.mem_cons.mp hmem with rfl | hmem
    · have htotal := Sized.total h
      rw [List.map_cons, List.sum_cons] at htotal
      omega
    · exact ih (Sized.tail h) hmem

namespace DiveBlockData

/-! ## The loop -/

/-- **The loop fails** exactly when a block starts after the next one. -/
theorem setSizes_fst_iff : (setSizes fileSize blocks).1 = true ↔ InOrder blocks := by
  induction blocks with
  | nil => simp [setSizes]
  | cons block blocks ih =>
    cases blocks with
    | nil => simp [setSizes]
    | cons next blocks =>
      rw [InOrder, List.isChain_cons_cons, setSizes]
      by_cases hlt : next.offset < block.offset
      · simp [hlt, UInt64.not_le.mpr hlt]
      · simp [hlt, UInt64.not_lt.mp hlt, ih]

theorem map_offset_setSizes :
    (setSizes fileSize blocks).2.map (·.offset) = blocks.map (·.offset) := by
  induction blocks with
  | nil => rfl
  | cons block blocks ih =>
    cases blocks with
    | nil => rfl
    | cons next blocks =>
      rw [setSizes]
      split_ifs
      · rfl
      · simp [ih]

theorem toNat_add_sub {a b : UInt64} (h : a ≤ b) : a.toNat + (b - a).toNat = b.toNat := by
  rw [UInt64.toNat_sub_of_le _ _ h]
  have hle := UInt64.le_iff_toNat_le.mp h
  omega

/-- **Blocks in order** that start inside the file get their sizes. -/
theorem setSizes_spec (horder : InOrder blocks)
    (hlast : ∀ block ∈ blocks.getLast?, block.offset ≤ fileSize) :
    Sized fileSize (setSizes fileSize blocks).2 := by
  induction blocks with
  | nil => exact trivial
  | cons block blocks ih =>
    cases blocks with
    | nil => exact toNat_add_sub (hlast block rfl)
    | cons next blocks =>
      rw [InOrder, List.isChain_cons_cons] at horder
      have hrest := ih horder.2 (by simpa using hlast)
      have hoffset := @map_offset_setSizes fileSize (next :: blocks)
      rw [setSizes, if_neg (UInt64.not_lt.mpr horder.1)]
      -- the next block keeps its offset, so this block ends there
      cases hsized : (setSizes fileSize (next :: blocks)).2 with
      | nil => simp [hsized] at hoffset
      | cons next' blocks' =>
        rw [hsized] at hrest hoffset
        have hnext : next'.offset = next.offset := by
          simp only [List.map_cons, List.cons.injEq] at hoffset
          exact hoffset.1
        simp only [hsized, Sized, hnext]
        exact ⟨toNat_add_sub horder.1, hrest⟩

theorem offset_le_of_inOrder (horder : InOrder blocks)
    (hlast : ∀ block ∈ blocks.getLast?, block.offset ≤ fileSize) {block : DiveOriginalBlock}
    (hmem : block ∈ blocks) : block.offset ≤ fileSize := by
  have hsized := setSizes_spec horder hlast
  have hoffset : block.offset ∈ (setSizes fileSize blocks).2.map (·.offset) := by
    rw [map_offset_setSizes]
    exact List.mem_map_of_mem hmem
  obtain ⟨sized, hin, heq⟩ := List.mem_map.mp hoffset
  have hle := hsized.le_fileSize hin
  rw [← heq, UInt64.le_iff_toNat_le]
  omega

/-! ## Finalizing -/

/-- The object after calls of `AddOriginalBlock`, some of which may be refused. -/
def addOriginalBlocks (calls : List (ℕ × UInt64)) : DiveBlockData :=
  calls.foldl (fun d call => (d.addOriginalBlock call.1 call.2).2) {}

theorem addOriginalBlock_unlocked {d : DiveBlockData} (h : d.originalBlocksMapLocked = false)
    (index : ℕ) (offset : UInt64) :
    (d.addOriginalBlock index offset).2.originalBlocksMapLocked = false := by
  unfold addOriginalBlock
  split_ifs
  · exact h
  · exact h
  · exact h

theorem addOriginalBlocks_unlocked (calls : List (ℕ × UInt64)) :
    (addOriginalBlocks calls).originalBlocksMapLocked = false := by
  have hfold : ∀ (calls : List (ℕ × UInt64)) (d : DiveBlockData),
      d.originalBlocksMapLocked = false →
        (calls.foldl (fun d call => (d.addOriginalBlock call.1 call.2).2)
          d).originalBlocksMapLocked = false := by
    intro calls
    induction calls with
    | nil => exact fun d h => h
    | cons call calls ih => exact fun d h => ih _ (addOriginalBlock_unlocked h call.1 call.2)
  exact hfold calls {} rfl

/-- The object is finalized for a file of this size: the blocks of `d` with sizes that add up to the
file behind the header, none of them outside the file. -/
structure ExactSizes (fileSize : UInt64) (d d' : DiveBlockData) : Prop where
  locked : d'.originalBlocksMapLocked = true
  offsets : d'.originalBlocksMap.map (·.offset) = d.originalBlocksMap.map (·.offset)
  sized : Sized fileSize d'.originalBlocksMap
  inside : ∀ block ∈ d'.originalBlocksMap,
    block.offset.toNat + block.size.toNat ≤ fileSize.toNat
  header : d'.originalHeaderBlock.offset = 0
  total : d'.originalHeaderBlock.size.toNat +
    (d'.originalBlocksMap.map (·.size.toNat)).sum = fileSize.toNat

/-- `FinalizeOriginalBlocksMapSizes` is exact: if it succeeds, so are the sizes, and it fails on
offsets out of order or past the end of the file, and leaves the object unfinalized. -/
structure FinalizesExactly (fileSize : UInt64) (d : DiveBlockData) : Prop where
  exact_of_true : (d.finalizeOriginalBlocksMapSizes fileSize).1 = true →
    ExactSizes fileSize d (d.finalizeOriginalBlocksMapSizes fileSize).2
  refuses : (¬ InOrder d.originalBlocksMap ∨
      ∃ block ∈ d.originalBlocksMap, fileSize < block.offset) →
    (d.finalizeOriginalBlocksMapSizes fileSize).1 = false ∧
      (d.finalizeOriginalBlocksMapSizes fileSize).2.originalBlocksMapLocked = false

/-- **Finalizing is exact** after any calls of `AddOriginalBlock`, exactly unless the offsets are in
order and the last one is past the end of the file. -/
theorem finalize_exact_iff (calls : List (ℕ × UInt64)) (fileSize : UInt64) :
    FinalizesExactly fileSize (addOriginalBlocks calls) ↔
      (InOrder (addOriginalBlocks calls).originalBlocksMap →
        ∀ last ∈ (addOriginalBlocks calls).originalBlocksMap.getLast?, last.offset ≤ fileSize) := by
  have hunlocked := addOriginalBlocks_unlocked calls
  generalize addOriginalBlocks calls = d at hunlocked
  cases hblocks : d.originalBlocksMap with
  | nil =>
    have hfails : d.finalizeOriginalBlocksMapSizes fileSize = (false, d) := by
      simp [finalizeOriginalBlocksMapSizes, hunlocked, hblocks]
    simp only [List.getLast?_nil, Option.mem_def, reduceCtorEq, false_imp_iff, implies_true,
      iff_true]
    refine ⟨?_, ?_⟩
    · rw [hfails]
      simp
    · rw [hfails]
      exact fun _ => ⟨rfl, hunlocked⟩
  | cons first blocks =>
    have hresult : d.finalizeOriginalBlocksMapSizes fileSize =
        ((setSizes fileSize (first :: blocks)).1, { d with
          originalBlocksMap := (setSizes fileSize (first :: blocks)).2
          originalHeaderBlock := { offset := 0, size := first.offset }
          originalBlocksMapLocked := (setSizes fileSize (first :: blocks)).1 }) := by
      simp [finalizeOriginalBlocksMapSizes, hunlocked, hblocks]
    constructor
    · intro h horder last hlast
      by_contra hpast
      have hfails := h.refuses (Or.inr ⟨last, by
        rw [hblocks]
        exact List.mem_of_getLast? hlast, UInt64.not_le.mp hpast⟩)
      rw [hresult] at hfails
      have hsucceeds := (@setSizes_fst_iff fileSize _).mpr horder
      exact absurd (hsucceeds.symm.trans hfails.1) (by decide)
    · intro h
      refine ⟨?_, ?_⟩
      · intro htrue
        rw [hresult] at htrue ⊢
        have horder := setSizes_fst_iff.mp htrue
        have hsized := setSizes_spec horder (h horder)
        refine ⟨htrue, ?_, hsized, fun block hmem => hsized.le_fileSize hmem, rfl, ?_⟩
        · rw [hblocks]
          exact map_offset_setSizes
        · -- the header ends where the first block starts
          have hoffset := @map_offset_setSizes fileSize (first :: blocks)
          cases hlist : (setSizes fileSize (first :: blocks)).2 with
          | nil => simp [hlist] at hoffset
          | cons first' blocks' =>
            rw [hlist] at hsized hoffset
            simp only [List.map_cons, List.cons.injEq] at hoffset
            have htotal := hsized.total
            rw [hoffset.1] at htotal
            exact htotal
      · intro hbad
        have hnot : ¬ InOrder (first :: blocks) := by
          intro horder
          rcases hbad with hbad | ⟨block, hmem, hpast⟩
          · exact hbad (hblocks ▸ horder)
          · rw [hblocks] at hmem
            exact absurd (offset_le_of_inOrder horder (h horder) hmem) (UInt64.not_le.mpr hpast)
        have hfalse : (setSizes fileSize (first :: blocks)).1 = false := by
          rw [← Bool.not_eq_true, setSizes_fst_iff]
          exact hnot
        rw [hresult]
        exact ⟨hfalse, hfalse⟩

/-- One block at offset 10 of a file of 5 bytes is finalized with a size of almost `2 ^ 64`. -/
theorem pastEnd_not_finalizesExactly :
    ¬ FinalizesExactly 5 (addOriginalBlocks [(0, 10)]) := by
  intro h
  have hsucceeds : ((addOriginalBlocks [(0, 10)]).finalizeOriginalBlocksMapSizes 5).1 = true := by
    decide +kernel
  have hfails := (h.refuses (Or.inr ⟨⟨10, 0⟩, by decide +kernel, by decide⟩)).1
  exact absurd (hsucceeds.symm.trans hfails) (by decide)

end DiveBlockData

end Dive
