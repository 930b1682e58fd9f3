import Dive.Gfxr.Write

/-!
# Writing a `.gfxr` file when reads and writes fail

* `FileCalls`: what the calls on the two files do, whether they succeed and how many bytes they
  move; `fileSeek`, `fileRead`, `fileWrite`; `writer`, `writeGFXRFileWith`: the writer on these.
* `FileOp`, `ops`: the operations that a block takes, `Succeed`: those that are to succeed do.
* `Runs`, `Runs.append`: a stretch of the run is reported if one of the operations whose result is
  looked at fails, and complete if all of them succeed.
* `writeGFXRFileWith_faultless`: without failures it is the writer of before.
* **`completeOrReported_iff`**: a new file is complete or reported unless a read or write of the
  copy loop fails while everything else succeeds.
-/

namespace Dive

/-! ## The files -/

/-- What the calls on the two files do. Seeks, reads and writes are numbered in the order they are
made; `moves n bytes` is how many of so many bytes the operation `n` reads or writes. -/
structure FileCalls where
  opensOriginal : Bool := true
  opensNew : Bool := true
  seeks : ℕ → Bool := fun _ => true
  moves : ℕ → ℕ → ℕ := fun _ bytes => bytes
  closesOriginal : Bool := true
  closesNew : Bool := true

/-- `WriterBlockVisitor` with its files: the number of operations so far, the position in the
original file, what is in the new file, and whether all was read and written in full. -/
structure FilesState where
  operations : ℕ := 0
  position : ℕ := 0
  copyBuffer : Buffer := Buffer.zero
  newFile : List UInt8 := []
  complete : Bool := true

namespace FileCalls

variable (calls : FileCalls)

/-- `FileSeek`. -/
def fileSeek (offset : UInt64) (s : FilesState) : Bool × FilesState :=
  let ok := decide (offset.toNat < 2 ^ 63) && calls.seeks s.operations
  (ok, { s with
    operations := s.operations + 1
    position := if ok then offset.toNat else s.position })

/-- `FileRead` into the copy buffer. -/
def fileRead (original : List UInt8) (bytes : ℕ) (s : FilesState) : Bool × FilesState :=
  let chunk := (original.drop s.position).take (min bytes (calls.moves s.operations bytes))
  let ok := decide (chunk.length = bytes)
  (ok, { s with
    operations := s.operations + 1
    position := s.position + chunk.length
    copyBuffer := s.copyBuffer.overwrite chunk
    complete := s.complete && ok })

/-- `FileWrite`. -/
def fileWrite (bytes : List UInt8) (s : FilesState) : Bool × FilesState :=
  let written := bytes.take (calls.moves s.operations bytes.length)
  let ok := decide (written.length = bytes.length)
  (ok, { s with
    operations := s.operations + 1
    newFile := s.newFile ++ written
    complete := s.complete && ok })

/-- The copy loop. The results of the read and the write are not looked at. -/
def copyBlock (original : List UInt8) : ℕ → ℕ → FilesState → FilesState
  | 0, _, s => s
  | fuel + 1, bytesLeftToCopy, s =>
    if 0 < bytesLeftToCopy then
      let bytesToCopy :=
        if kDiveBlockBufferSize < bytesLeftToCopy then kDiveBlockBufferSize else bytesLeftToCopy
      let read := (calls.fileRead original bytesToCopy s).2
      let wrote := (calls.fileWrite ((List.range bytesToCopy).map read.copyBuffer) read).2
      copyBlock original fuel (bytesLeftToCopy - bytesToCopy) wrote
    else s

/-- `WriterBlockVisitor`, for buffers that hold `blobs`. -/
def writer (original : DiskFile) (blobs : BlobPtr → List UInt8) : BlockVisitor FilesState where
  visitOriginal block s :=
    if block.size = 0 then (true, s)
    else
      let seek := calls.fileSeek block.offset s
      if !seek.1 then (false, seek.2)
      else (true, calls.copyBlock original.bytes block.size.toNat block.size.toNat seek.2)
  visitModification block s :=
    if blobs block.blobPtr = [] then (false, s)
    else calls.fileWrite (blobs block.blobPtr) s

end FileCalls

/-- `WriteGFXRFile`. -/
def DiveBlockData.writeGFXRFileWith (d : DiveBlockData) (calls : FileCalls) (original : DiskFile)
    (blobs : BlobPtr → List UInt8) : Option (Bool × FilesState) :=
  if !d.originalBlocksMapLocked then some (false, {})
  else if !calls.opensOriginal then some (false, {})
  else if !calls.opensNew then some (false, {})
  else
    let header := (calls.writer original blobs).visitOriginal d.originalHeaderBlock {}
    if !header.1 then some (false, header.2)
    else
      (d.traverseBlocks (calls.writer original blobs) header.2).map fun r =>
        (r.1 && calls.closesOriginal && calls.closesNew, r.2)

/-! ## The operations of a run -/

/-- An operation on the files. A read names the position it is meant for. -/
inductive FileOp
  | seek (offset : UInt64)
  | copyRead (position bytes : ℕ)
  | copyWrite (bytes : ℕ)
  | write (bytes : ℕ)
  deriving DecidableEq

/-- The result of the operation is looked at. -/
def FileOp.checked : FileOp → Bool
  | .seek _ => true
  | .copyRead _ _ => false
  | .copyWrite _ => false
  | .write _ => true

/-- The operation succeeds as number `n`. There must be data to write for a modification. -/
def FileOp.Succeeds (calls : FileCalls) (original : DiskFile) (n : ℕ) : FileOp → Prop
  | .seek offset => offset.toNat < 2 ^ 63 ∧ calls.seeks n = true
  | .copyRead position bytes =>
    bytes ≤ calls.moves n bytes ∧ position + bytes ≤ original.bytes.length
  | .copyWrite bytes => bytes ≤ calls.moves n bytes
  | .write bytes => 0 < bytes ∧ bytes ≤ calls.moves n bytes

/-- The operations in question, of those from number `n` on, succeed. -/
def Succeed (calls : FileCalls) (original : DiskFile) (which : FileOp → Bool) :
    ℕ → List FileOp → Prop
  | _, [] => True
  | n, op :: ops =>
    (which op = true → op.Succeeds calls original n) ∧ Succeed calls original which (n + 1) ops

/-- The operations of the copy loop. -/
def copyOps : ℕ → ℕ → ℕ → List FileOp
  | 0, _, _ => []
  | fuel + 1, position, bytesLeftToCopy =>
    if 0 < bytesLeftToCopy then
      let bytesToCopy :=
        if kDiveBlockBufferSize < bytesLeftToCopy then kDiveBlockBufferSize else bytesLeftToCopy
      .copyRead position bytesToCopy :: .copyWrite bytesToCopy ::
        copyOps fuel (position + bytesToCopy) (bytesLeftToCopy - bytesToCopy)
    else []

/-- The operations that a block takes. -/
def ops (blobs : BlobPtr → List UInt8) : Option IDiveBlock → List FileOp
  | none => []
  | some (.original block) =>
    if block.size = 0 then []
    else .seek block.offset :: copyOps block.size.toNat block.offset.toNat block.size.toNat
  | some (.modification block) => [.write (blobs block.blobPtr).length]

variable {calls : FileCalls} {original : DiskFile} {which : FileOp → Bool}

theorem succeed_append (n : ℕ) (l l' : List FileOp) :
    Succeed calls original which n (l ++ l') ↔
      Succeed calls original which n l ∧ Succeed calls original which (n + l.length) l' := by
  induction l generalizing n with
  | nil => simp [Succeed]
  | cons op l ih =>
    rw [List.cons_append, Succeed, Succeed, ih, List.length_cons, and_assoc, Nat.add_right_comm]
    rfl

theorem checked_copyOps (fuel position left n : ℕ) :
    Succeed calls original FileOp.checked n (copyOps fuel position left) := by
  induction fuel generalizing position left n with
  | zero => exact trivial
  | succ fuel ih =>
    rw [copyOps]
    by_cases h : 0 < left
    · rw [if_pos h]
      exact ⟨by simp [FileOp.checked], by simp [FileOp.checked], ih _ _ _⟩
    · rw [if_neg h]
      exact trivial

/-! ## One stretch of the run -/

/-- From `s` the operations ended in `r`. It is reported if one that is looked at fails, and it is
complete, and wrote the bytes, if all succeed. -/
structure Runs (calls : FileCalls) (original : DiskFile) (ops : List FileOp) (bytes : List UInt8)
    (s : FilesState) (r : Bool × FilesState) : Prop where
  reported : r.1 = true ↔ Succeed calls original FileOp.checked s.operations ops
  operations : r.1 = true → r.2.operations = s.operations + ops.length
  complete : r.1 = true → (r.2.complete = true ↔
    s.complete = true ∧ Succeed calls original (fun _ => true) s.operations ops)
  newFile : r.1 = true → r.2.complete = true → r.2.newFile = s.newFile ++ bytes

theorem Runs.nil (s : FilesState) : Runs calls original [] [] s (true, s) where
  reported := by simp [Succeed]
  operations _ := rfl
  complete _ := by simp [Succeed]
  newFile _ _ := (List.append_nil _).symm

/-- **A stretch after another**, if that was not reported. -/
theorem Runs.append {ops ops' : List FileOp} {bytes bytes' : List UInt8} {s : FilesState}
    {r r' : Bool × FilesState} (h : Runs calls original ops bytes s r)
    (h' : Runs calls original ops' bytes' r.2 r') :
    Runs calls original (ops ++ ops') (bytes ++ bytes') s (if r.1 then r' else (false, r.2)) := by
  cases hr : r.1 with
  | false =>
    have hnot : ¬ Succeed calls original FileOp.checked s.operations ops := by
      rw [← h.reported, hr]
      exact Bool.false_ne_true
    simp only [Bool.false_eq_true, if_false]
    refine ⟨?_, nofun, nofun, nofun⟩
    rw [succeed_append]
    simp [hnot]
  | true =>
    have hops := h.operations hr
    simp only [if_true]
    refine ⟨?_, ?_, ?_, ?_⟩
    · rw [succeed_append, ← h.reported, h'.reported, hops]
      simp [hr]
    · intro hr'
      rw [h'.operations hr', hops, List.length_append, Nat.add_assoc]
    · intro hr'
      rw [h'.complete hr', h.complete hr, succeed_append, hops, and_assoc]
    · intro hr' hcomplete
      have hfirst := ((h'.complete hr').mp hcomplete).1
      rw [h'.newFile hr' hcomplete, h.newFile hr hfirst, List.append_assoc]

/-- **The copy loop** goes through its operations. It is complete if they all succeed, and then has
copied the bytes. -/
theorem copyBlock_spec {fuel position left : ℕ} {s : FilesState} (hfuel : left ≤ fuel)
    (hposition : s.complete = true → s.position = position) :
    Runs calls original (copyOps fuel position left)
      ((original.bytes.drop position).take left) s
      (true, calls.copyBlock original.bytes fuel left s) := by
  induction fuel generalizing position left s with
  | zero =>
    obtain rfl : left = 0 := by omega
    simpa [copyOps, FileCalls.copyBlock] using Runs.nil s
  | succ fuel ih =>
    by_cases h0 : 0 < left
    · have hk : kDiveBlockBufferSize = 4096 := rfl
      obtain ⟨n, hn, hpos, hle⟩ : ∃ n, (if kDiveBlockBufferSize < left then kDiveBlockBufferSize
          else left) = n ∧ 0 < n ∧ n ≤ left := by
        refine ⟨_, rfl, ?_, ?_⟩ <;> split_ifs <;> omega
      rw [copyOps, FileCalls.copyBlock, if_pos h0, if_pos h0]
      simp only [hn]
      obtain ⟨read, hread⟩ : ∃ read, (calls.fileRead original.bytes n s).2 = read := ⟨_, rfl⟩
      obtain ⟨wrote, hwrote⟩ : ∃ wrote,
        (calls.fileWrite ((List.range n).map read.copyBuffer) read).2 = wrote := ⟨_, rfl⟩
      rw [hread, hwrote]
      -- the read is complete only at the position it is meant for
      have hreadComplete : read.complete = true ↔ s.complete = true ∧
          (FileOp.copyRead position n).Succeeds calls original s.operations := by
        rw [← hread]
        simp only [FileCalls.fileRead, Bool.and_eq_true, decide_eq_true_eq, FileOp.Succeeds]
        refine and_congr_right fun hs => ?_
        rw [hposition hs, List.length_take, List.length_drop]
        omega
      have hreadOps : read.operations = s.operations + 1 := by
        rw [← hread]
        rfl
      have hwroteOps : wrote.operations = s.operations + 1 + 1 := by
        rw [← hwrote, ← hreadOps]
        rfl
      have hwroteComplete : wrote.complete = true ↔ read.complete = true ∧
          (FileOp.copyWrite n).Succeeds calls original (s.operations + 1) := by
        rw [← hwrote, ← hreadOps]
        simp only [FileCalls.fileWrite, Bool.and_eq_true, decide_eq_true_eq, FileOp.Succeeds,
          List.length_take, List.length_map, List.length_range]
        refine and_congr_right fun _ => ?_
        omega
      have hwrotePosition : wrote.position = read.position := by
        rw [← hwrote]
        rfl
      have hchunk : read.complete = true → read.position = position + n ∧
          (List.range n).map read.copyBuffer = (original.bytes.drop position).take n := by
        intro hc
        obtain ⟨hs, hmoves, hin⟩ := hreadComplete.mp hc
        have hlen : ((original.bytes.drop position).take n).length = n := by
          rw [List.length_take, List.length_drop]
          omega
        rw [← hread]
        simp only [FileCalls.fileRead, hposition hs, Nat.min_eq_left hmoves, hlen, true_and]
        exact Buffer.map_range_overwrite _ hlen
      have hwroteFile : wrote.complete = true →
          wrote.newFile = s.newFile ++ (original.bytes.drop position).take n := by
        intro hc
        obtain ⟨hr, hmoves⟩ := hwroteComplete.mp hc
        have hlen : ((original.bytes.drop position).take n).length = n := by
          rw [← (hchunk hr).2]
          simp
        rw [← hwrote]
        simp only [FileCalls.fileWrite, (hchunk hr).2, hlen]
        rw [List.take_of_length_le (by rw [hlen, hreadOps]; exact hmoves), ← hread]
        rfl
      have hrest : Runs calls original (copyOps fuel (position + n) (left - n))
          ((original.bytes.drop (position + n)).take (left - n)) wrote
          (true, calls.copyBlock original.bytes fuel (left - n) wrote) := by
        apply ih
        · omega
        · intro hc
          rw [hwrotePosition, (hchunk (hwroteComplete.mp hc).1).1]
      refine ⟨?_, ?_, ?_, ?_⟩
      · exact iff_of_true rfl ⟨by simp [FileOp.checked], by simp [FileOp.checked],
          checked_copyOps _ _ _ _⟩
      · intro _
        rw [hrest.operations rfl, hwroteOps]
        simp only [List.length_cons]
        omega
      · intro _
        rw [hrest.complete rfl, hwroteComplete, hreadComplete, hwroteOps]
        simp only [Succeed, forall_const, and_assoc]
      · intro _ hc
        have hc' := ((hrest.complete rfl).mp hc).1
        have hsplit : left = n + (left - n) := by omega
        rw [hrest.newFile rfl hc, hwroteFile hc', List.append_assoc]
        congr 1
        conv_rhs => rw [hsplit, List.take_add, List.drop_drop]
    · obtain rfl : left = 0 := by omega
      simpa [copyOps, FileCalls.copyBlock] using Runs.nil s

variable {blobs : BlobPtr → List UInt8}

/-- **A block of the original file** is copied. -/
theorem visitOriginal_runs (block : DiveOriginalBlock) (s : FilesState) :
    Runs calls original (ops blobs (some (.original block)))
      (content original blobs (some (.original block))) s
      ((calls.writer original blobs).visitOriginal block s) := by
  simp only [ops, content, FileCalls.writer]
  by_cases hsize : block.size = 0
  · simpa [hsize] using Runs.nil s
  · rw [if_neg hsize, if_neg hsize]
    have hseek : Runs calls original [.seek block.offset] [] s (calls.fileSeek block.offset s) := by
      refine ⟨?_, fun _ => rfl, ?_, fun _ _ => (List.append_nil _).symm⟩
      · simp [FileCalls.fileSeek, Succeed, FileOp.checked, FileOp.Succeeds]
      · intro htrue
        simp only [FileCalls.fileSeek, Bool.and_eq_true, decide_eq_true_eq] at htrue
        simp only [FileCalls.fileSeek, Succeed, FileOp.Succeeds, htrue, and_true, imp_self]
    cases hok : (calls.fileSeek block.offset s).1 with
    | false =>
      have hfirst := hseek.append (Runs.nil (calls.fileSeek block.offset s).2)
      rw [hok] at hfirst
      have hnot : ¬ Succeed calls original FileOp.checked s.operations
          (.seek block.offset :: copyOps block.size.toNat block.offset.toNat block.size.toNat) := by
        intro h
        have hseeks := hseek.reported.mpr ⟨h.1, trivial⟩
        rw [hok] at hseeks
        exact Bool.false_ne_true hseeks
      simp only [Bool.not_false, if_true]
      exact ⟨iff_of_false Bool.false_ne_true hnot, fun htrue => absurd htrue Bool.false_ne_true,
        fun htrue => absurd htrue Bool.false_ne_true,
        fun htrue => absurd htrue Bool.false_ne_true⟩
    | true =>
      have hposition : (calls.fileSeek block.offset s).2.position = block.offset.toNat := by
        simp only [FileCalls.fileSeek] at hok ⊢
        rw [if_pos hok]
      have hcopy := hseek.append (copyBlock_spec (le_refl block.size.toNat) fun _ => hposition)
      rw [hok] at hcopy
      exact hcopy

/-- **A modification** is written. -/
theorem visitModification_runs (block : DiveModificationBlock) (s : FilesState) :
    Runs calls original (ops blobs (some (.modification block)))
      (content original blobs (some (.modification block))) s
      ((calls.writer original blobs).visitModification block s) := by
  simp only [ops, content, FileCalls.writer]
  by_cases hblob : blobs block.blobPtr = []
  · rw [if_pos hblob, hblob]
    refine ⟨iff_of_false Bool.false_ne_true ?_, fun htrue => absurd htrue Bool.false_ne_true,
      fun htrue => absurd htrue Bool.false_ne_true, fun htrue => absurd htrue Bool.false_ne_true⟩
    intro h
    exact absurd (h.1 rfl).1 (by simp)
  · have hpos : 0 < (blobs block.blobPtr).length := List.length_pos_iff.mpr hblob
    have hok : (calls.fileWrite (blobs block.blobPtr) s).1 = true ↔
        (blobs block.blobPtr).length ≤ calls.moves s.operations (blobs block.blobPtr).length := by
      simp [FileCalls.fileWrite]
    rw [if_neg hblob]
    refine ⟨?_, fun _ => rfl, ?_, ?_⟩
    · rw [hok]
      simp [Succeed, FileOp.checked, FileOp.Succeeds, hpos]
    · intro htrue
      have hmoves := hok.mp htrue
      simp [FileCalls.fileWrite, Succeed, FileOp.Succeeds, hpos, hmoves]
    · intro htrue _
      simp only [FileCalls.fileWrite]
      rw [List.take_of_length_le (hok.mp htrue)]

/-- **The blocks** are copied and written one after the other, up to the first failure that is
looked at. -/
theorem acceptAll_runs (l : List (Option IDiveBlock)) (s : FilesState) :
    Runs calls original (l.flatMap (ops blobs)) (l.flatMap (content original blobs)) s
      (acceptAll (calls.writer original blobs) l s) := by
  induction l generalizing s with
  | nil => exact Runs.nil s
  | cons b l ih =>
    rw [List.flatMap_cons, List.flatMap_cons]
    match b with
    | none => exact ih s
    | some (.original block) => exact (visitOriginal_runs block s).append (ih _)
    | some (.modification block) => exact (visitModification_runs block s).append (ih _)

/-! ## The whole run -/

/-- The operations that the new file takes. -/
def DiveBlockData.allOps (d : DiveBlockData) (blobs : BlobPtr → List UInt8) : List FileOp :=
  ops blobs (some (.original d.originalHeaderBlock)) ++
    (d.blocksInOrder 0 d.originalBlocksMap).flatMap (ops blobs)

/-- Everything succeeds whose result is looked at. -/
structure NoReport (d : DiveBlockData) (calls : FileCalls) (original : DiskFile)
    (blobs : BlobPtr → List UInt8) : Prop where
  locked : d.originalBlocksMapLocked = true
  blocks : d.originalBlocksMap.length < 2 ^ 32
  opens : calls.opensOriginal = true ∧ calls.opensNew = true
  checked : Succeed calls original FileOp.checked 0 (d.allOps blobs)
  closes : calls.closesOriginal = true ∧ calls.closesNew = true

variable {d : DiveBlockData}

theorem traverseBlocks_eq {S : Type} (v : BlockVisitor S) (s : S)
    (hlt : d.originalBlocksMap.length < 2 ^ 32) :
    d.traverseBlocks v s = some (acceptAll v (d.blocksInOrder 0 d.originalBlocksMap) s) := by
  have htake : d.originalBlocksMap.take (2 ^ 32) = d.originalBlocksMap :=
    List.take_of_length_le (by omega)
  simp only [DiveBlockData.traverseBlocks, htake, DiveBlockData.traverseFrom_eq]
  rw [decide_eq_false (Nat.not_le.mpr hlt), Bool.and_false]
  rfl

theorem traverseBlocks_ne {S : Type} (v : BlockVisitor S) (s s' : S)
    (hle : 2 ^ 32 ≤ d.originalBlocksMap.length) : d.traverseBlocks v s ≠ some (true, s') := by
  simp only [DiveBlockData.traverseBlocks]
  rw [decide_eq_true hle, Bool.and_true]
  split_ifs with h
  · intro heq
    cases heq
  · intro heq
    rw [Option.some.inj heq] at h
    exact h rfl

/-- What the new file is to hold: the header and the blocks in order. -/
def DiveBlockData.allContent (d : DiveBlockData) (original : DiskFile)
    (blobs : BlobPtr → List UInt8) : List UInt8 :=
  content original blobs (some (.original d.originalHeaderBlock)) ++
    (d.blocksInOrder 0 d.originalBlocksMap).flatMap (content original blobs)

/-- **The header and the blocks**, where the object is finalized and the files can be opened. -/
theorem writeGFXRFileWith_runs (hlocked : d.originalBlocksMapLocked = true)
    (hopens : calls.opensOriginal = true ∧ calls.opensNew = true)
    (hlt : d.originalBlocksMap.length < 2 ^ 32) :
    ∃ r, Runs calls original (d.allOps blobs) (d.allContent original blobs) {} r ∧
      d.writeGFXRFileWith calls original blobs =
        some (r.1 && calls.closesOriginal && calls.closesNew, r.2) := by
  have hheader := @visitOriginal_runs calls original blobs d.originalHeaderBlock {}
  unfold DiveBlockData.writeGFXRFileWith
  simp only [hlocked, hopens.1, hopens.2, traverseBlocks_eq _ _ hlt, Bool.not_true,
    Bool.false_eq_true, if_false]
  obtain ⟨header, hr⟩ : ∃ header, (calls.writer original blobs).visitOriginal
    d.originalHeaderBlock {} = header := ⟨_, rfl⟩
  rw [hr] at hheader ⊢
  refine ⟨_, hheader.append (acceptAll_runs (d.blocksInOrder 0 d.originalBlocksMap) header.2), ?_⟩
  cases header.1 with
  | false => rfl
  | true => rfl

/-- **True is returned** exactly when nothing is reported. The run is then complete, and the new
file the right one, if all operations succeed. -/
theorem writeGFXRFileWith_eq_true :
    ((∃ s, d.writeGFXRFileWith calls original blobs = some (true, s)) ↔
        NoReport d calls original blobs) ∧
      ∀ s, d.writeGFXRFileWith calls original blobs = some (true, s) →
        (s.complete = true ↔ Succeed calls original (fun _ => true) 0 (d.allOps blobs)) ∧
          (s.complete = true → s.newFile = d.allContent original blobs) := by
  by_cases hlocked : d.originalBlocksMapLocked = true
  · by_cases hopens : calls.opensOriginal = true ∧ calls.opensNew = true
    · by_cases hlt : d.originalBlocksMap.length < 2 ^ 32
      · obtain ⟨r, hruns, hwrite⟩ :=
          @writeGFXRFileWith_runs calls original blobs d hlocked hopens hlt
        have htrue : ∀ s, d.writeGFXRFileWith calls original blobs = some (true, s) ↔
            (r.1 = true ∧ calls.closesOriginal = true ∧ calls.closesNew = true) ∧ r.2 = s := by
          intro s
          simp [hwrite, and_assoc]
        constructor
        · constructor
          · rintro ⟨s, hs⟩
            obtain ⟨⟨hr, hcloses⟩, -⟩ := (htrue s).mp hs
            exact ⟨hlocked, hlt, hopens, hruns.reported.mp hr, hcloses⟩
          · intro h
            exact ⟨r.2, (htrue _).mpr ⟨⟨hruns.reported.mpr h.checked, h.closes⟩, rfl⟩⟩
        · intro s hs
          obtain ⟨⟨hr, -⟩, rfl⟩ := (htrue s).mp hs
          exact ⟨(hruns.complete hr).trans (by simp), hruns.newFile hr⟩
      · have hnever : ∀ s, d.writeGFXRFileWith calls original blobs ≠ some (true, s) := by
          intro s hs
          simp only [DiveBlockData.writeGFXRFileWith, hlocked, hopens.1, hopens.2, Bool.not_true,
            Bool.false_eq_true, if_false] at hs
          split_ifs at hs
          · cases hs
          · obtain ⟨t, ht, heq⟩ := Option.map_eq_some_iff.mp hs
            simp only [Prod.mk.injEq, Bool.and_eq_true] at heq
            apply traverseBlocks_ne _ _ t.2 (Nat.not_lt.mp hlt)
            rw [ht, ← heq.1.1.1]
        exact ⟨⟨fun ⟨s, hs⟩ => absurd hs (hnever s), fun h => absurd h.blocks hlt⟩,
          fun s hs => absurd hs (hnever s)⟩
    · have hfalse : d.writeGFXRFileWith calls original blobs = some (false, {}) := by
        unfold DiveBlockData.writeGFXRFileWith
        simp only [hlocked]
        cases hoo : calls.opensOriginal with
        | false => rfl
        | true =>
          cases hon : calls.opensNew with
          | false => rfl
          | true => exact absurd ⟨hoo, hon⟩ hopens
      simp only [hfalse, Option.some.injEq, Prod.mk.injEq, Bool.false_eq_true, false_and,
        exists_false, false_iff, false_imp_iff, implies_true, and_true]
      exact fun h => hopens h.opens
  · have hfalse : d.writeGFXRFileWith calls original blobs = some (false, {}) := by
      simp [DiveBlockData.writeGFXRFileWith, hlocked]
    simp only [hfalse, Option.some.injEq, Prod.mk.injEq, Bool.false_eq_true, false_and,
      exists_false, false_iff, false_imp_iff, implies_true, and_true]
    exact fun h => hlocked h.locked

/-! ## Without failures -/

/-- What the writer without failures keeps. -/
def FilesState.toWriter (s : FilesState) : WriterState := ⟨s.copyBuffer, s.newFile⟩

theorem copyBlock_faultless (bytes : List UInt8) (fuel left : ℕ) (s : FilesState) :
    (FileCalls.copyBlock {} bytes fuel left s).toWriter =
      copyLoop bytes fuel s.position left s.toWriter := by
  induction fuel generalizing left s with
  | zero => rfl
  | succ fuel ih =>
    rw [FileCalls.copyBlock, copyLoop]
    by_cases h : 0 < left
    · rw [if_pos h, if_pos h, ih]
      simp only [FileCalls.fileRead, FileCalls.fileWrite, FilesState.toWriter,
        WriterState.fileWrite, Nat.min_self, List.take_length]
    · rw [if_neg h, if_neg h]

theorem accept_faultless (b : IDiveBlock) (s : FilesState) :
    (b.accept (FileCalls.writer {} original blobs) s).map id FilesState.toWriter =
      b.accept (writerBlockVisitor original blobs) s.toWriter := by
  cases b with
  | original block =>
    simp only [IDiveBlock.accept, FileCalls.writer, writerBlockVisitor, FileCalls.fileSeek]
    by_cases hsize : block.size = 0
    · simp [hsize]
    · by_cases hoffset : block.offset.toNat < 2 ^ 63
      · rw [if_neg hsize, if_neg hsize, if_neg (Nat.not_le.mpr hoffset)]
        simp only [hoffset, decide_true, Bool.and_self, Bool.not_true, Bool.false_eq_true,
          if_false, Prod.map_apply, id_eq, copyBlock_faultless, if_true]
        rfl
      · rw [if_neg hsize, if_neg hsize, if_pos (Nat.not_lt.mp hoffset)]
        simp only [hoffset, decide_false, Bool.false_and, Bool.not_false, if_true]
        rfl
  | modification block =>
    simp only [IDiveBlock.accept, FileCalls.writer, writerBlockVisitor, FileCalls.fileWrite]
    by_cases hblob : blobs block.blobPtr = []
    · simp [hblob]
    · simp [hblob, FilesState.toWriter, WriterState.fileWrite]

theorem acceptAll_faultless (l : List (Option IDiveBlock)) (s : FilesState) :
    (acceptAll (FileCalls.writer {} original blobs) l s).map id FilesState.toWriter =
      acceptAll (writerBlockVisitor original blobs) l s.toWriter := by
  induction l generalizing s with
  | nil => rfl
  | cons b l ih =>
    cases b with
    | none => exact ih s
    | some b =>
      have hb := @accept_faultless original blobs b s
      simp only [acceptAll, ← hb, Prod.map_fst, Prod.map_snd, id_eq]
      split_ifs
      · exact ih _
      · rfl

/-- **Without failures** the writer is the one of `writeGFXRFile`. -/
theorem writeGFXRFileWith_faultless (d : DiveBlockData) :
    (d.writeGFXRFileWith {} original blobs).map (Prod.map id FilesState.newFile) =
      d.writeGFXRFile original blobs := by
  have hheader := @accept_faultless original blobs (.original d.originalHeaderBlock) {}
  simp only [IDiveBlock.accept] at hheader
  unfold DiveBlockData.writeGFXRFileWith DiveBlockData.writeGFXRFile
  cases d.originalBlocksMapLocked with
  | false => rfl
  | true =>
    have hstart : FilesState.toWriter {} = {} := rfl
    rw [hstart] at hheader
    simp only [Bool.not_true, Bool.false_eq_true, if_false, ← hheader, Prod.map_fst, Prod.map_snd,
      id_eq]
    cases ((FileCalls.writer {} original blobs).visitOriginal d.originalHeaderBlock {}).1 with
    | false => rfl
    | true =>
      simp only [Bool.not_true, Bool.false_eq_true, if_false, if_true, Bool.and_true,
        DiveBlockData.traverseBlocks, DiveBlockData.traverseFrom_eq, ← acceptAll_faultless,
        Prod.map_fst, id_eq]
      split_ifs
      · rfl
      · rfl

/-! ## Complete or reported -/

/-- If true is returned, all that was asked for was read and written, and the new file is the
expected one. -/
def CompleteOrReported (calls : FileCalls) (original : DiskFile) (d : DiveBlockData)
    (blobs : BlobPtr → List UInt8) (expected : List UInt8) : Prop :=
  ∀ s, d.writeGFXRFileWith calls original blobs = some (true, s) →
    s.complete = true ∧ s.newFile = expected

theorem completeOrReported_allContent_iff :
    CompleteOrReported calls original d blobs (d.allContent original blobs) ↔
      (NoReport d calls original blobs →
        Succeed calls original (fun _ => true) 0 (d.allOps blobs)) := by
  obtain ⟨htrue, hspec⟩ := @writeGFXRFileWith_eq_true calls original blobs d
  constructor
  · intro h hnone
    obtain ⟨s, hs⟩ := htrue.mpr hnone
    exact (hspec s hs).1.mp (h s hs).1
  · intro h s hs
    have hcomplete := (hspec s hs).1.mpr (h (htrue.mp ⟨s, hs⟩))
    exact ⟨hcomplete, (hspec s hs).2 hcomplete⟩

/-- **The new file of an edited file is complete or reported**, whatever the calls on the files do,
exactly if they do not all succeed whose results are looked at while another one fails. -/
theorem completeOrReported_iff (file : DiskFile) (offsets : List UInt64) (h : Parsed file offsets)
    (hfin : (finalized file offsets).1 = true) (edits : List Edit) (blobs : BlobPtr → List UInt8)
    (neg pos : ℕ → List Int32)
    (hlists : Lists offsets.length (inForce offsets.length edits) neg pos) (calls : FileCalls) :
    CompleteOrReported calls file ((finalized file offsets).2.edited edits) blobs
        (expectedFile file offsets (inForce offsets.length edits) blobs neg pos) ↔
      (NoReport ((finalized file offsets).2.edited edits) calls file blobs →
        Succeed calls file (fun _ => true) 0
          (((finalized file offsets).2.edited edits).allOps blobs)) := by
  obtain ⟨hm, hmap, hheader, -⟩ := edited_finalized h hfin edits
  have hcontent : ((finalized file offsets).2.edited edits).allContent file blobs =
      expectedFile file offsets (inForce offsets.length edits) blobs neg pos := by
    rw [DiveBlockData.allContent, hmap, hheader, content_header h,
      flatMap_blocksInOrder h hm (Nat.zero_add _).symm hlists, expectedFile]
  rw [← hcontent]
  exact completeOrReported_allContent_iff

/-- The read of the header, the second operation, fails; everything else succeeds. -/
def headerNotRead : FileCalls where
  moves n bytes := if n = 1 then 0 else bytes

/-- **A failed read of the header is not reported.** -/
theorem headerNotRead_not_completeOrReported :
    ¬ CompleteOrReported headerNotRead twoBlocks ((finalized twoBlocks [1, 3]).2.edited [])
      (fun _ => []) (expectedFile twoBlocks [1, 3] (inForce 2 []) (fun _ => []) (fun _ => []) fun _ => []) := by
  intro h
  have hwrite : (((finalized twoBlocks [1, 3]).2.edited []).writeGFXRFileWith headerNotRead
      twoBlocks fun _ => []).map (fun r => (r.1, r.2.complete, r.2.newFile)) =
        some (true, false, [0, 20, 21, 30]) := by
    decide +kernel
  obtain ⟨⟨ok, s⟩, hs, heq⟩ := Option.map_eq_some_iff.mp hwrite
  simp only [Prod.mk.injEq] at heq
  have hcomplete := (h s (by rw [hs, heq.1])).1
  exact absurd (heq.2.1.symm.trans hcomplete) (by decide)

/-- Without failures the edits of the two blocks are written in full. -/
theorem completeOrReported_someEdits :
    CompleteOrReported {} twoBlocks ((finalized twoBlocks [1, 3]).2.edited someEdits)
      (fun _ => [7, 8]) (expectedFile twoBlocks [1, 3] (inForce 2 someEdits) (fun _ => [7, 8])
        (fun i => if i = 1 then [-3] else []) fun _ => []) := by
  refine (completeOrReported_iff twoBlocks [1, 3] parsed_twoBlocks finalized_twoBlocks someEdits
    (fun _ => [7, 8]) _ _ lists_someEdits {}).mpr fun _ => ?_
  have hops : ((finalized twoBlocks [1, 3]).2.edited someEdits).allOps (fun _ => [7, 8]) =
      [.seek 0, .copyRead 0 1, .copyWrite 1, .seek 1, .copyRead 1 2, .copyWrite 2, .write 2] := by
    decide +kernel
  rw [hops]
  simp [Succeed, FileOp.Succeeds, twoBlocks]

end Dive
