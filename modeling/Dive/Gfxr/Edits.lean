import Dive.Gfxr.BlockData

/-!
# Editing and writing a `.gfxr` file

* `Edit`, `inForce`: the modifications in force after a history of edits, as a function of the ids;
  **`lookup_edited`**: the map holds exactly these.
* `acceptAll_eq`, `traverseFrom_eq`: a traversal visits the blocks in order up to the first failure.
* **`toList_blocksToWrite`**: the modifications before a block, what stands for it, and the
  modifications after it.
-/

namespace Dive

/-- An operation on the modifications. -/
inductive Edit
  | add (primaryId : UInt32) (secondaryId : Int32) (blobPtr : Option BlobPtr)
  | remove (primaryId : UInt32) (secondaryId : Int32)
  | clear

/-- The modifications of the blocks, by id: none, a deletion, or a buffer. -/
abbrev Modifications : Type := UInt32 → Int32 → Option (Option BlobPtr)

/-- Another modification, or none, for the ids given. -/
def Modifications.set (m : Modifications) (p : UInt32) (q : Int32)
    (b : Option (Option BlobPtr)) : Modifications :=
  fun p' q' => if p' = p ∧ q' = q then b else m p' q'

/-- The modifications in force after an edit of a file of `n` blocks. An edit is refused if there is
a modification with these ids, if there is no such block, or if it deletes what is not a block of
the file. -/
def Modifications.edit (n : ℕ) (m : Modifications) : Edit → Modifications
  | .add p q b =>
    if (m p q).isSome ∨ n ≤ p.toNat ∨ b = none ∧ q ≠ 0 then m else m.set p q (some b)
  | .remove p q => m.set p q none
  | .clear => fun _ _ => none

/-- The modifications in force after the edits. -/
def inForce (n : ℕ) (edits : List Edit) : Modifications :=
  edits.foldl (Modifications.edit n) fun _ _ => none

namespace DiveBlockData

variable {d : DiveBlockData} {p : UInt32} {q : Int32}

/-- The object after an edit. -/
def edit (d : DiveBlockData) : Edit → DiveBlockData
  | .add p q b => (d.addModification p q b).2
  | .remove p q => (d.removeModification p q).2
  | .clear => d.clearAllModifications

/-- The modifications that the map holds. -/
def lookup (d : DiveBlockData) : Modifications := fun p q =>
  (d.modificationsOf p)[q]?.map fun b => b.map (·.blobPtr)

theorem getElem?_modificationsOf_insert (m : Std.TreeMap Int32 (Option DiveModificationBlock))
    (p' : UInt32) (d' : DiveBlockData)
    (h : d'.modificationsMap = d.modificationsMap.insert p m) :
    d'.modificationsOf p' = if p' = p then m else d.modificationsOf p' := by
  unfold modificationsOf
  rw [h, Std.TreeMap.getD_insert]
  refine if_congr ?_ rfl rfl
  rw [Std.compare_eq_iff_eq, eq_comm]

theorem modificationExists_eq : d.modificationExists p q = (d.lookup p q).isSome := by
  have hempty : d.modificationsMap.contains p = false → d.modificationsOf p = ∅ := by
    intro h
    exact Std.TreeMap.getD_eq_fallback_of_contains_eq_false h
  unfold modificationExists lookup
  cases h : d.modificationsMap.contains p with
  | false => simp [hempty h]
  | true => simp

theorem lookup_set (b : Option DiveModificationBlock) :
    (d.setModification p q b).lookup = d.lookup.set p q (some (b.map (·.blobPtr))) := by
  funext p' q'
  unfold lookup
  rw [getElem?_modificationsOf_insert _ p' (d.setModification p q b) rfl, Modifications.set]
  by_cases hp : p' = p
  · subst hp
    rw [if_pos rfl, Std.TreeMap.getElem?_insert]
    by_cases hq : q' = q
    · simp [hq]
    · simp [hq, Ne.symm hq]
  · simp [hp]

theorem lookup_edit (hlocked : d.originalBlocksMapLocked = true) (e : Edit) :
    (d.edit e).lookup = d.lookup.edit d.originalBlocksMap.length e := by
  cases e with
  | add p q b =>
    simp only [edit, addModification, Modifications.edit, modificationExists_eq, hlocked]
    by_cases hsome : (d.lookup p q).isSome = true
    · simp [hsome]
    · by_cases hlen : d.originalBlocksMap.length ≤ p.toNat
      · simp [hsome, hlen]
      · cases b with
        | none =>
          by_cases hq : q = 0
          · subst hq
            simp [hsome, hlen, lookup_set]
          · simp [hsome, hlen, hq]
        | some b => simp [hsome, hlen, lookup_set]
  | remove p q =>
    simp only [edit, removeModification, Modifications.edit, modificationExists_eq]
    by_cases hsome : (d.lookup p q).isSome = true
    · simp only [hsome, Bool.not_true, Bool.false_eq_true, if_false]
      funext p' q'
      unfold lookup Modifications.set
      rw [getElem?_modificationsOf_insert (d := d) _ p' _ rfl]
      by_cases hp : p' = p
      · subst hp
        rw [if_pos rfl, Std.TreeMap.getElem?_erase]
        by_cases hq : q' = q
        · simp [hq]
        · simp [hq, Ne.symm hq]
      · simp [hp]
    · have hnone : d.lookup p q = none := by simpa using hsome
      simp only [hsome, Bool.not_false, if_true]
      funext p' q'
      unfold Modifications.set
      split_ifs with h
      · rw [h.1, h.2, hnone]
      · rfl
  | clear =>
    funext p q
    simp [edit, clearAllModifications, lookup, modificationsOf, Modifications.edit]

theorem edit_frame (e : Edit) :
    (d.edit e).originalBlocksMap = d.originalBlocksMap ∧
      (d.edit e).originalHeaderBlock = d.originalHeaderBlock ∧
      (d.edit e).originalBlocksMapLocked = d.originalBlocksMapLocked := by
  cases e with
  | add p q b =>
    cases b with
    | none =>
      simp only [edit, addModification]
      split_ifs <;> exact ⟨rfl, rfl, rfl⟩
    | some b =>
      simp only [edit, addModification]
      split_ifs <;> exact ⟨rfl, rfl, rfl⟩
  | remove p q =>
    simp only [edit, removeModification]
    split_ifs <;> exact ⟨rfl, rfl, rfl⟩
  | clear => exact ⟨rfl, rfl, rfl⟩

/-- The object after the edits. -/
def edited (d : DiveBlockData) (edits : List Edit) : DiveBlockData := edits.foldl edit d

/-- **The map holds the modifications in force**, and the original blocks are as before. -/
theorem lookup_edited (hlocked : d.originalBlocksMapLocked = true) (edits : List Edit) :
    (d.edited edits).lookup =
        edits.foldl (Modifications.edit d.originalBlocksMap.length) d.lookup ∧
      (d.edited edits).originalBlocksMap = d.originalBlocksMap ∧
      (d.edited edits).originalHeaderBlock = d.originalHeaderBlock ∧
      (d.edited edits).originalBlocksMapLocked = true := by
  induction edits generalizing d with
  | nil => exact ⟨rfl, rfl, rfl, hlocked⟩
  | cons e edits ih =>
    obtain ⟨hmap, hheader, hlock⟩ := edit_frame (d := d) e
    obtain ⟨h1, h2, h3, h4⟩ := @ih (d.edit e) (hlock.trans hlocked)
    refine ⟨?_, h2.trans hmap, h3.trans hheader, h4⟩
    rw [List.foldl_cons, ← lookup_edit hlocked, ← hmap]
    exact h1

end DiveBlockData

/-! ## Traversals -/

section Traversal

variable {S : Type} {v : BlockVisitor S}

theorem acceptAll_append (l l' : List (Option IDiveBlock)) (s : S) : acceptAll v (l ++ l') s =
    if (acceptAll v l s).1 then acceptAll v l' (acceptAll v l s).2 else acceptAll v l s := by
  induction l generalizing s with
  | nil => rfl
  | cons b l ih =>
    cases b with
    | none => exact ih s
    | some b =>
      rw [List.cons_append]
      simp only [acceptAll]
      by_cases h : (b.accept v s).1 = true
      · simp only [h, if_true]
        exact ih _
      · simp [h]

/-- The blocks that a traversal of `blocks` visits, the first of which has the id `primaryId`. -/
def DiveBlockData.blocksInOrder (d : DiveBlockData) :
    ℕ → List DiveOriginalBlock → List (Option IDiveBlock)
  | _, [] => []
  | primaryId, block :: blocks =>
    (d.blocksToWrite primaryId block).toList.map Prod.snd ++
      d.blocksInOrder (primaryId + 1) blocks

/-- **A traversal** visits the blocks in order, up to the first that is not accepted. -/
theorem DiveBlockData.traverseFrom_eq (d : DiveBlockData) (primaryId : ℕ)
    (blocks : List DiveOriginalBlock) (s : S) :
    d.traverseFrom v primaryId blocks s = acceptAll v (d.blocksInOrder primaryId blocks) s := by
  induction blocks generalizing primaryId s with
  | nil => rfl
  | cons block blocks ih =>
    rw [DiveBlockData.blocksInOrder, acceptAll_append]
    simp only [DiveBlockData.traverseFrom, ih]
    split_ifs with h
    · rfl
    · ext <;> simp [h]

end Traversal

/-! ## The order of the modifications of a block -/

/-- The elements of `l` are those with the property, in ascending order. -/
structure Ascending (P : Int32 → Prop) (l : List Int32) : Prop where
  sorted : l.Pairwise (· < ·)
  mem : ∀ q, q ∈ l ↔ P q

theorem eq_of_pairwise_lt {β : Type} {l l' : List (Int32 × β)}
    (h : l.Pairwise fun a b => a.1 < b.1) (h' : l'.Pairwise fun a b => a.1 < b.1)
    (hmem : ∀ a, a ∈ l ↔ a ∈ l') : l = l' := by
  have hnodup : ∀ {l : List (Int32 × β)}, l.Pairwise (fun a b => a.1 < b.1) → l.Nodup := by
    intro l hl
    apply hl.imp
    rintro a b hab rfl
    exact Int32.lt_irrefl hab
  refine ((List.perm_ext_iff_of_nodup (hnodup h) (hnodup h')).mpr hmem).eq_of_pairwise ?_ h h'
  intro a b _ _ hab hba
  exact absurd hba (Int32.lt_asymm hab)

namespace DiveBlockData

variable {d : DiveBlockData} {neg pos : List Int32} {primaryId : ℕ} {block : DiveOriginalBlock}

/-- What the writer does with a modification. -/
def written (b : Option BlobPtr) : Option IDiveBlock := b.map fun r => .modification ⟨r⟩

theorem getElem?_blocksToWrite (m : Int32 → Option (Option BlobPtr))
    (hm : d.lookup (UInt32.ofNat primaryId) = m) (q : Int32) :
    (d.blocksToWrite primaryId block)[q]? =
      if q = 0 then some ((m 0).elim (some (.original block)) written) else (m q).map written := by
  have hmap : ∀ q, ((d.modificationsOf (UInt32.ofNat primaryId)).map fun _ b =>
      b.map IDiveBlock.modification)[q]? = (m q).map written := by
    intro q
    rw [Std.TreeMap.getElem?_map, ← hm, lookup, Option.map_map]
    congr 1
    funext b
    cases b <;> rfl
  unfold blocksToWrite
  rw [Std.TreeMap.getElem?_insertIfNew, hmap]
  by_cases hq : q = 0
  · subst hq
    rw [if_pos rfl]
    cases h0 : m 0 with
    | none =>
      have hnew : (0 : Int32) ∉ (d.modificationsOf (UInt32.ofNat primaryId)).map fun _ b =>
          b.map IDiveBlock.modification := by
        rw [Std.TreeMap.mem_iff_isSome_getElem?, hmap, h0]
        simp
      rw [if_pos ⟨Std.compare_eq_iff_eq.mpr rfl, hnew⟩]
      rfl
    | some b =>
      have hold : ¬ (0 : Int32) ∉ (d.modificationsOf (UInt32.ofNat primaryId)).map fun _ b =>
          b.map IDiveBlock.modification := by
        rw [Std.TreeMap.mem_iff_isSome_getElem?, hmap, h0]
        simp
      rw [if_neg fun h => hold h.2]
      rfl
  · rw [if_neg hq, if_neg fun h => hq (Std.compare_eq_iff_eq.mp h.1).symm]

/-- **The blocks to write for one id**: the modifications before the block in ascending order, the
block or what stands for it, and the modifications after it in ascending order. -/
theorem toList_blocksToWrite (m : Int32 → Option (Option BlobPtr))
    (hm : d.lookup (UInt32.ofNat primaryId) = m)
    (hneg : Ascending (fun q => q < 0 ∧ (m q).isSome) neg)
    (hpos : Ascending (fun q => 0 < q ∧ (m q).isSome) pos) :
    (d.blocksToWrite primaryId block).toList.map Prod.snd =
      neg.map (fun q => (m q).elim none written) ++
        (m 0).elim (some (.original block)) written ::
          pos.map fun q => (m q).elim none written := by
  have hlist : (d.blocksToWrite primaryId block).toList =
      neg.map (fun q => (q, (m q).elim none written)) ++
        (0, (m 0).elim (some (.original block)) written) ::
          pos.map fun q => (q, (m q).elim none written) := by
    apply eq_of_pairwise_lt
    · exact Std.TreeMap.ordered_keys_toList.imp fun h => Std.compare_eq_lt.mp h
    · rw [List.pairwise_append, List.pairwise_cons, List.pairwise_map, List.pairwise_map]
      refine ⟨hneg.sorted, ⟨?_, hpos.sorted⟩, ?_⟩
      · intro a ha
        obtain ⟨q, hq, rfl⟩ := List.mem_map.mp ha
        exact ((hpos.mem q).mp hq).1
      · intro a ha b hb
        obtain ⟨q, hq, rfl⟩ := List.mem_map.mp ha
        have hlt := ((hneg.mem q).mp hq).1
        rcases List.mem_cons.mp hb with rfl | hb
        · exact hlt
        · obtain ⟨q', hq', rfl⟩ := List.mem_map.mp hb
          exact Int32.lt_trans hlt ((hpos.mem q').mp hq').1
    · rintro ⟨q, b⟩
      rw [Std.TreeMap.mem_toList_iff_getElem?_eq_some, getElem?_blocksToWrite m hm]
      have hsome : ∀ q', (m q').isSome ∧ (m q').elim none written = b ↔
          (m q').map written = some b := by
        intro q'
        cases m q' <;> simp
      simp only [List.mem_append, List.mem_cons, List.mem_map, Prod.mk.injEq, hneg.mem, hpos.mem]
      by_cases hq : q = 0
      · subst hq
        simp only [if_true, Option.some.injEq, true_and]
        constructor
        · exact fun h => Or.inr (Or.inl h.symm)
        · rintro (⟨q', ⟨hlt, -⟩, rfl, -⟩ | h | ⟨q', ⟨hlt, -⟩, rfl, -⟩)
          · exact absurd hlt (Int32.lt_irrefl)
          · exact h.symm
          · exact absurd hlt (Int32.lt_irrefl)
      · rw [if_neg hq, ← hsome]
        constructor
        · rintro ⟨hs, hb⟩
          rcases Int32.lt_or_lt_of_ne hq with hlt | hlt
          · exact Or.inl ⟨q, ⟨hlt, hs⟩, rfl, hb⟩
          · exact Or.inr (Or.inr ⟨q, ⟨hlt, hs⟩, rfl, hb⟩)
        · rintro (⟨q', ⟨-, hs⟩, rfl, hb⟩ | ⟨h0, -⟩ | ⟨q', ⟨-, hs⟩, rfl, hb⟩)
          · exact ⟨hs, hb⟩
          · exact absurd h0 hq
          · exact ⟨hs, hb⟩
  rw [hlist]
  simp [Function.comp_def]

end DiveBlockData

end Dive
