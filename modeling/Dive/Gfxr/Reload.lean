import Dive.Gfxr.Loading

/-!
# Editing the blocks of a `.gfxr` file

* `editedFrom`: the blocks of the new file, when the buffers hold whole blocks.
* **`reload_edited`**: a file that is loaded, edited, written and loaded again has these blocks.
-/

namespace Dive

open DiveFileProcessor FrameCapture

/-- The new blocks that stand for the parts from number `i` on: the blocks before a part, its
replacement, nothing, or the part itself, and the blocks after it. -/
def editedFrom (m : Modifications) (blob : BlobPtr → List GfxrBlock) (neg pos : ℕ → List Int32) :
    ℕ → List (List GfxrBlock) → List GfxrBlock
  | _, [] => []
  | i, part :: parts =>
    let buffer := fun q => ((m (UInt32.ofNat i) q).getD none).elim [] blob
    (neg i).flatMap buffer ++
      (match m (UInt32.ofNat i) 0 with
        | some b => b.elim [] blob
        | none => part) ++
      (pos i).flatMap buffer ++ editedFrom m blob neg pos (i + 1) parts

section Reload

variable {R : Replay} {h : GfxrHeader} {file : DiskFile} {blocks : List GfxrBlock}
  {parts : List (List GfxrBlock)} {pre header : List UInt8} {d : DiveBlockData}
  {m : Modifications} {blob : BlobPtr → List GfxrBlock} {neg pos : ℕ → List Int32}

theorem blockBytes_append (blocks blocks' : List GfxrBlock) :
    blockBytes (blocks ++ blocks') = blockBytes blocks ++ blockBytes blocks' :=
  List.flatMap_append

theorem blockBytes_flatMap {α : Type} (l : List α) (f : α → List GfxrBlock) :
    blockBytes (l.flatMap f) = l.flatMap fun a => blockBytes (f a) :=
  List.flatMap_assoc

/-- **The new bytes** are those of the new blocks. -/
theorem expectedFrom_blocks {i : ℕ} (hfile : file.bytes = pre ++ (parts.map blockBytes).flatten) :
    expectedFrom file m (fun r => blockBytes (blob r)) neg pos i
      (offsetsOf pre.length (parts.map blockBytes)) =
      blockBytes (editedFrom m blob neg pos i parts) := by
  have hbuffer : ∀ b : Option BlobPtr, b.elim [] (fun r => blockBytes (blob r)) =
      blockBytes (b.elim [] blob) := by
    intro b
    cases b <;> rfl
  induction parts generalizing pre i with
  | nil => rfl
  | cons part parts ih =>
    have hrest : file.bytes = pre ++ blockBytes part ++ (parts.map blockBytes).flatten := by
      rw [hfile, List.map_cons, List.flatten_cons, List.append_assoc]
    have ih' := ih (i := i + 1) hrest
    have hend := endOffset_offsetsOf hrest
    have hlt := file.length_lt
    have hlen := congrArg List.length hrest
    rw [List.length_append, List.length_append] at hlen
    have hstart : (UInt64.ofNat pre.length).toNat = pre.length := by
      rw [UInt64.toNat_ofNat', Nat.mod_eq_of_lt (by omega)]
    rw [List.length_append] at ih' hend
    have hpart : (file.bytes.drop pre.length).take (pre.length + (blockBytes part).length -
        pre.length) = blockBytes part := by
      rw [Nat.add_sub_cancel_left, hrest, List.append_assoc, List.drop_left, List.take_left]
    rw [List.map_cons, offsetsOf, expectedFrom, editedFrom, ih', hend, hstart, hpart]
    simp only [blockBytes_append, blockBytes_flatMap, hbuffer]
    cases m (UInt32.ofNat i) 0 <;> rfl

theorem mem_editedFrom {b : GfxrBlock} {i : ℕ} (hb : b ∈ editedFrom m blob neg pos i parts) :
    (∃ part ∈ parts, b ∈ part) ∨ ∃ r, b ∈ blob r := by
  have hbuffer : ∀ x : Option BlobPtr, b ∈ x.elim [] blob → ∃ r, b ∈ blob r := by
    rintro (_ | r) hx
    · exact absurd hx List.not_mem_nil
    · exact ⟨r, hx⟩
  have hflat : ∀ (l : List Int32) (f : Int32 → Option BlobPtr),
      b ∈ l.flatMap (fun q => (f q).elim [] blob) → ∃ r, b ∈ blob r := by
    intro l f hl
    obtain ⟨q, -, hq⟩ := List.mem_flatMap.mp hl
    exact hbuffer _ hq
  induction parts generalizing i with
  | nil => exact absurd hb List.not_mem_nil
  | cons part parts ih =>
    rw [editedFrom] at hb
    rcases List.mem_append.mp hb with hb | hb
    · rcases List.mem_append.mp hb with hb | hb
      · rcases List.mem_append.mp hb with hb | hb
        · exact Or.inr (hflat _ _ hb)
        · cases hm : m (UInt32.ofNat i) 0 with
          | none =>
            rw [hm] at hb
            exact Or.inl ⟨part, List.mem_cons_self, hb⟩
          | some x =>
            rw [hm] at hb
            exact Or.inr (hbuffer x hb)
      · exact Or.inr (hflat _ _ hb)
    · refine (ih hb).imp_left ?_
      rintro ⟨part', hpart', hb'⟩
      exact ⟨part', List.mem_cons_of_mem _ hpart', hb'⟩

/-- The parts of a loaded file: each of its blocks, and perhaps an empty part. -/
def LoadedParts (blocks : List GfxrBlock) (parts : List (List GfxrBlock)) : Prop :=
  parts = blocks.map (fun b => [b]) ∨ parts = blocks.map (fun b => [b]) ++ [[]]

theorem loads_parts (hs : h.Supported R) (hne : blocks ≠ [])
    (hplain : ∀ b ∈ blocks, Plain (parsed R b))
    (hfile : file.bytes = h.bytes ++ blockBytes blocks) :
    ∃ d parts, Loads R file d ∧ LoadedParts blocks parts ∧
      HasBlocks file h.bytes (parts.map blockBytes) d := by
  have hsingle : (blocks.map fun b => [b]).map blockBytes = blocks.map GfxrBlock.bytes := by
    rw [List.map_map]
    refine List.map_congr_left fun b _ => ?_
    exact List.append_nil b.bytes
  obtain ⟨d, hload, hd | hd⟩ := exists_loads hs hne hplain hfile
  · refine ⟨d, _, hload, Or.inl rfl, ?_⟩
    rw [hsingle]
    exact hd
  · refine ⟨d, _, hload, Or.inr rfl, ?_⟩
    rw [List.map_append, hsingle]
    exact hd

theorem LoadedParts.length_le (hparts : LoadedParts blocks parts) :
    parts.length ≤ blocks.length + 1 := by
  rcases hparts with rfl | rfl <;> simp

theorem LoadedParts.mem {part : List GfxrBlock} {b : GfxrBlock} (hparts : LoadedParts blocks parts)
    (hpart : part ∈ parts) (hb : b ∈ part) : b ∈ blocks := by
  have hsingle : part ∈ blocks.map (fun b => [b]) → b ∈ blocks := by
    intro hmem
    obtain ⟨b', hb', rfl⟩ := List.mem_map.mp hmem
    exact List.mem_singleton.mp hb ▸ hb'
  rcases hparts with rfl | rfl
  · exact hsingle hpart
  · rcases List.mem_append.mp hpart with hmem | hmem
    · exact hsingle hmem
    · rw [List.mem_singleton.mp hmem] at hb
      exact absurd hb List.not_mem_nil

theorem HasBlocks.written {edits : List Edit}
    (hd : HasBlocks file header (parts.map blockBytes) d) (hcount : parts.length < 2 ^ 32)
    (hlists : Lists parts.length (inForce parts.length edits) neg pos)
    (hdata : ∀ p q r, inForce parts.length edits p q = some (some r) → blob r ≠ []) :
    (d.edited edits).writeGFXRFile file (fun r => blockBytes (blob r)) = some (true,
      header ++ blockBytes (editedFrom (inForce parts.length edits) blob neg pos 0 parts)) := by
  have hlen : (offsetsOf header.length (parts.map blockBytes)).length = parts.length := by
    rw [length_offsetsOf, List.length_map]
  have hparsed := parsed_offsetsOf hd.bytes
  have hfin := hd.finalized
  obtain ⟨hm, hmap, hheader, hlocked⟩ := edited_finalized hparsed (by rw [hfin]) edits
  rw [hfin] at hm hmap hheader hlocked
  have hfilled : Filled (fun r => blockBytes (blob r)) ((d.edited edits).blocksInOrder 0
      (sizedBlocks file (offsetsOf header.length (parts.map blockBytes)))) := by
    rintro ⟨r⟩ hr hnil
    obtain ⟨j, -, q, hq⟩ := (mem_blocksInOrder hm).mp hr
    rw [hlen] at hq
    have hpos := length_blockBytes_pos (hdata _ q r hq)
    exact absurd (congrArg List.length hnil) hpos.ne'
  obtain ⟨ok, out, hwrite, hok, hout⟩ := @writeGFXRFile_eq file _ (fun r => blockBytes (blob r)) _
    hparsed (by rw [hlen]; exact hcount) hlocked hheader hmap
  have htrue : ok = true := hok.mpr hfilled
  rw [← hlen] at hlists
  rw [flatMap_blocksInOrder hparsed hm (Nat.zero_add _).symm hlists, hlen,
    expectedFrom_blocks hd.bytes, endOffset_offsetsOf hd.bytes, hd.bytes, List.take_left] at hout
  rw [hwrite, htrue, hout htrue]

theorem loads_editedFrom {i : ℕ} (hs : h.Supported R) (hplain : ∀ b ∈ blocks, Plain (parsed R b))
    (hblob : ∀ r, ∀ b ∈ blob r, Plain (parsed R b)) (hparts : LoadedParts blocks parts)
    (hfile : file.bytes = h.bytes ++ blockBytes (editedFrom m blob neg pos i parts))
    (hne : editedFrom m blob neg pos i parts ≠ []) :
    ∃ d last, Loads R file d ∧ HasBlocks file h.bytes
        ((editedFrom m blob neg pos i parts).map GfxrBlock.bytes ++ last) d ∧
      (last = [] ∨ last = [[]]) := by
  have hnew : ∀ b ∈ editedFrom m blob neg pos i parts, Plain (parsed R b) := by
    intro b hb
    rcases mem_editedFrom hb with ⟨part, hpart, hbpart⟩ | ⟨r, hr⟩
    · exact hplain b (hparts.mem hpart hbpart)
    · exact hblob r b hr
  obtain ⟨d, hload, hd⟩ := exists_loads hs hne hnew hfile
  obtain ⟨last, hlast⟩ := HasBlocks.exists_last hd
  exact ⟨d, last, hload, hlast⟩

/-- **A file that is loaded, edited and written** has the new blocks, and is loaded with them. -/
theorem reload_edited (hs : h.Supported R) (hne : blocks ≠ [])
    (hplain : ∀ b ∈ blocks, Plain (parsed R b)) (hcount : blocks.length + 1 < 2 ^ 32)
    (hfile : file.bytes = h.bytes ++ blockBytes blocks)
    (hblob : ∀ r, ∀ b ∈ blob r, Plain (parsed R b)) (edits : List Edit) :
    ∃ d parts, Loads R file d ∧ LoadedParts blocks parts ∧
      HasBlocks file h.bytes (parts.map blockBytes) d ∧
      ∀ neg pos, Lists parts.length (inForce parts.length edits) neg pos →
        (∀ p q r, inForce parts.length edits p q = some (some r) → blob r ≠ []) →
        let new := editedFrom (inForce parts.length edits) blob neg pos 0 parts
        (d.edited edits).writeGFXRFile file (fun r => blockBytes (blob r)) =
          some (true, h.bytes ++ blockBytes new) ∧
        ∀ file' : DiskFile, file'.bytes = h.bytes ++ blockBytes new → new ≠ [] →
          ∃ d' last, Loads R file' d' ∧
            HasBlocks file' h.bytes (new.map GfxrBlock.bytes ++ last) d' ∧
            (last = [] ∨ last = [[]]) := by
  obtain ⟨d, parts, hload, hparts, hd⟩ := loads_parts hs hne hplain hfile
  refine ⟨d, parts, hload, hparts, hd, fun neg pos hlists hdata => ?_⟩
  have hlt : parts.length < 2 ^ 32 := lt_of_le_of_lt hparts.length_le hcount
  exact ⟨hd.written hlt hlists hdata, fun file' hfile' hne' =>
    loads_editedFrom hs hplain hblob hparts hfile' hne'⟩

/-- The call gets a state begin marker before it, and its frame end marker is replaced by two. -/
def oneCallEdits : List Edit := [.add 1 (-1) (some 0), .add 2 0 (some 1)]

def oneCallBuffers : BlobPtr → List GfxrBlock
  | 0 => [markerBlock 2 1 1]
  | _ => [markerBlock 1 2 1, markerBlock 1 2 2]

theorem reload_oneCall :
    ∃ d parts, Loads plainReplay oneCallFile d ∧ LoadedParts oneCallBlocks parts ∧
      HasBlocks oneCallFile oneCall.header.bytes (parts.map blockBytes) d ∧
      ∀ neg pos, Lists parts.length (inForce parts.length oneCallEdits) neg pos →
        (∀ p q r, inForce parts.length oneCallEdits p q = some (some r) →
          oneCallBuffers r ≠ []) →
        let new := editedFrom (inForce parts.length oneCallEdits) oneCallBuffers neg pos 0 parts
        (d.edited oneCallEdits).writeGFXRFile oneCallFile
            (fun r => blockBytes (oneCallBuffers r)) =
          some (true, oneCall.header.bytes ++ blockBytes new) ∧
        ∀ file' : DiskFile, file'.bytes = oneCall.header.bytes ++ blockBytes new → new ≠ [] →
          ∃ d' last, Loads plainReplay file' d' ∧
            HasBlocks file' oneCall.header.bytes (new.map GfxrBlock.bytes ++ last) d' ∧
            (last = [] ∨ last = [[]]) :=
  reload_edited oneCall.supported (by decide) (by decide +kernel) (by decide) rfl
    (fun r => match r with
      | 0 => by decide +kernel
      | _ + 1 => by
        show ∀ b ∈ [markerBlock 1 2 1, markerBlock 1 2 2], Plain (parsed plainReplay b)
        decide +kernel)
    oneCallEdits

end Reload

end Dive
