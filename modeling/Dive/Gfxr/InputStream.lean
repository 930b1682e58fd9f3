import Dive.Memory.Manager

/-!
# The input stream of a `.gfxr` file

* `CFile`: a file opened with `fopen`, without I/O errors.
* `FStreamFileInputStream`: the stream with its read-ahead buffer; `peekBytes`, `readBytes`,
  `fileSeek`, `fileTell`, as in the source.
* `Cursor`: the plain file, a position in its bytes.
* **`replies_eq`**: whatever is called, the stream answers as the plain file, up to a seek to before
  the start.
-/

namespace Dive

/-! ## Files -/

/-- A file opened for reading: `FILE`. -/
structure CFile where
  bytes : List UInt8
  position : ℕ := 0
  eof : Bool := false

inductive FileSeekOrigin
  | fileSeekSet
  | fileSeekCurrent
  | fileSeekEnd
  deriving DecidableEq

/-- Where a seek goes to, in a file of `length` bytes. -/
def FileSeekOrigin.target (origin : FileSeekOrigin) (length position : ℕ) (offset : ℤ) : ℤ :=
  match origin with
  | .fileSeekSet => offset
  | .fileSeekCurrent => position + offset
  | .fileSeekEnd => length + offset

namespace CFile

/-- `FileReadBytes`: the bytes read, fewer than `n` at the end of the file. -/
def fileReadBytes (f : CFile) (n : ℕ) : List UInt8 × CFile :=
  let got := (f.bytes.drop f.position).take n
  (got, { f with position := f.position + got.length, eof := f.eof || got.length < n })

/-- `fseeko`: a position before the start is refused. The source also refuses one beyond an `off_t`;
here positions have no bound. -/
def fileSeek (f : CFile) (offset : ℤ) (origin : FileSeekOrigin) : Bool × CFile :=
  let target := origin.target f.bytes.length f.position offset
  if target < 0 then (false, f) else (true, { f with position := target.toNat, eof := false })

end CFile

/-! ## The read-ahead buffer -/

namespace Buffer

/-- The bytes from `start` on. -/
def slice (b : Buffer) (start n : ℕ) : List UInt8 := (List.range n).map fun i => b (start + i)

/-- The buffer after the bytes were written from `start` on. -/
def store (b : Buffer) (start : ℕ) (bytes : List UInt8) : Buffer := fun i =>
  if start ≤ i then bytes[i - start]?.getD (b i) else b i

end Buffer

def kReadAheadBufferSize : ℕ := 1024

def kMaxPeekBytes : ℕ := 32

/-- The stream with its read-ahead. -/
structure FStreamFileInputStream where
  fd : CFile
  readAheadBytes : ℕ := 0
  readAheadOffset : ℕ := 0
  readAheadBuffer : Buffer := Buffer.zero

namespace FStreamFileInputStream

/-- `Open`. -/
def opened (bytes : List UInt8) : FStreamFileInputStream where
  fd := { bytes := bytes }

/-- `IsEof`. -/
def isEof (s : FStreamFileInputStream) : Bool := s.readAheadBytes == 0 && s.fd.eof

/-- The stream after `n` bytes were taken from the read-ahead buffer. -/
def consume (s : FStreamFileInputStream) (n : ℕ) : FStreamFileInputStream :=
  if n = s.readAheadBytes then { s with readAheadBytes := 0, readAheadOffset := 0 }
  else { s with readAheadBytes := s.readAheadBytes - n, readAheadOffset := s.readAheadOffset + n }

/-- `ReadFromReadAheadBuffer`: the bytes copied. -/
def readFromReadAheadBuffer (s : FStreamFileInputStream) (bytes : ℕ) :
    List UInt8 × FStreamFileInputStream :=
  let copyBytes := if s.readAheadBytes ≠ 0 then min bytes s.readAheadBytes else 0
  let copied := s.readAheadBuffer.slice s.readAheadOffset copyBytes
  let s := if s.readAheadBytes ≠ 0 then s.consume copyBytes else s
  let remainBytes := bytes - copyBytes
  if 0 < remainBytes ∧ remainBytes < kReadAheadBufferSize then
    -- a small read fills the buffer
    let (got, fd) := s.fd.fileReadBytes kReadAheadBufferSize
    let buffer := s.readAheadBuffer.store 0 got
    let remainRead := min remainBytes got.length
    (copied ++ buffer.slice 0 remainRead,
      { s with
        fd := fd
        readAheadBuffer := buffer
        readAheadOffset := remainRead
        readAheadBytes := got.length - remainRead })
  else (copied, s)

/-- `ReadBytes`: whether all bytes were read, and what was written to the caller's buffer. -/
def readBytes (s : FStreamFileInputStream) (bytes : ℕ) :
    Bool × List UInt8 × FStreamFileInputStream :=
  let (copied, s) := s.readFromReadAheadBuffer bytes
  let bytes := bytes - copied.length
  if bytes ≠ 0 then
    let (got, fd) := s.fd.fileReadBytes bytes
    (got.length = bytes, copied ++ got, { s with fd := fd })
  else (true, copied, s)

/-- `PeekBytes`: the bytes copied. -/
def peekBytes (s : FStreamFileInputStream) (bytes : ℕ) :
    List UInt8 × FStreamFileInputStream :=
  let bytes := min bytes kMaxPeekBytes
  let s :=
    if s.readAheadBytes < bytes then
      -- the bytes move to the start of the buffer, and the rest of it is filled
      let moved := s.readAheadBuffer.store 0
        (s.readAheadBuffer.slice s.readAheadOffset s.readAheadBytes)
      let (got, fd) := s.fd.fileReadBytes (kReadAheadBufferSize - s.readAheadBytes)
      { s with
        fd := fd
        readAheadBuffer := moved.store s.readAheadBytes got
        readAheadBytes := s.readAheadBytes + got.length
        readAheadOffset := 0 }
    else s
  (s.readAheadBuffer.slice s.readAheadOffset (min bytes s.readAheadBytes), s)

/-- The end of `FileSeek`: the read-ahead buffer is given up, also if the seek fails. -/
def seekFd (s : FStreamFileInputStream) (offset : ℤ) (origin : FileSeekOrigin) :
    Bool × FStreamFileInputStream :=
  let (success, fd) := s.fd.fileSeek offset origin
  (success, { s with fd := fd, readAheadBytes := 0, readAheadOffset := 0 })

/-- `FileSeek`. -/
def fileSeek (s : FStreamFileInputStream) (offset : ℤ) (origin : FileSeekOrigin) :
    Bool × FStreamFileInputStream :=
  if s.readAheadBytes ≠ 0 ∧ origin = .fileSeekCurrent then
    if 0 < offset ∧ offset ≤ s.readAheadBytes then (true, s.consume offset.toNat)
    -- the file is ahead of the caller
    else s.seekFd (offset - s.readAheadBytes) origin
  else s.seekFd offset origin

/-- `FileTell`. -/
def fileTell (s : FStreamFileInputStream) : ℤ := s.fd.position - s.readAheadBytes

end FStreamFileInputStream

/-! ## Calls -/

/-- The calls of the readers of a stream; `ReadOverwriteSpan` and `ReadSpan` are `ReadBytes` into a
fresh buffer. -/
inductive StreamCall
  | readBytes (bytes : ℕ)
  | peekBytes (bytes : ℕ)
  | fileSeek (offset : ℤ) (origin : FileSeekOrigin)
  | fileTell

/-- What a call returns and writes. -/
inductive StreamReply
  | read (success : Bool) (written : List UInt8)
  | peeked (written : List UInt8)
  | sought (success : Bool)
  | position (offset : ℤ)
  deriving DecidableEq

/-- The replies to the calls, up to a seek that fails. -/
def replies {σ : Type} (answer : σ → StreamCall → StreamReply × σ) :
    List StreamCall → σ → List StreamReply
  | [], _ => []
  | c :: cs, s =>
    let (r, s) := answer s c
    r :: if r = .sought false then [] else replies answer cs s

def FStreamFileInputStream.answer (s : FStreamFileInputStream) :
    StreamCall → StreamReply × FStreamFileInputStream
  | .readBytes n => let (success, written, s) := s.readBytes n; (.read success written, s)
  | .peekBytes n => let (written, s) := s.peekBytes n; (.peeked written, s)
  | .fileSeek offset origin => let (success, s) := s.fileSeek offset origin; (.sought success, s)
  | .fileTell => (.position s.fileTell, s)

/-- The plain file: its bytes, and a position that may be past them. -/
structure Cursor where
  bytes : List UInt8
  position : ℕ := 0

/-- What a stream is to do. -/
def Cursor.answer (c : Cursor) : StreamCall → StreamReply × Cursor
  | .readBytes n =>
    let got := (c.bytes.drop c.position).take n
    (.read (got.length = n) got, { c with position := c.position + got.length })
  | .peekBytes n => (.peeked ((c.bytes.drop c.position).take (min n kMaxPeekBytes)), c)
  | .fileSeek offset origin =>
    let target := origin.target c.bytes.length c.position offset
    if target < 0 then (.sought false, c) else (.sought true, { c with position := target.toNat })
  | .fileTell => (.position c.position, c)

/-! ## Slices -/

namespace Buffer

variable {b : Buffer} {start m n : ℕ} {l : List UInt8}

@[simp] theorem length_slice : (b.slice start n).length = n := by simp [slice]

theorem slice_zero : b.slice start 0 = [] := rfl

theorem slice_add : b.slice start (m + n) = b.slice start m ++ b.slice (start + m) n := by
  simp [slice, List.range_add, Nat.add_assoc]

theorem take_slice (h : m ≤ n) : (b.slice start n).take m = b.slice start m := by
  obtain ⟨k, rfl⟩ := Nat.exists_eq_add_of_le h
  rw [slice_add]
  exact List.take_left' length_slice

theorem drop_slice (h : m ≤ n) : (b.slice start n).drop m = b.slice (start + m) (n - m) := by
  obtain ⟨k, rfl⟩ := Nat.exists_eq_add_of_le h
  rw [slice_add, Nat.add_sub_cancel_left]
  exact List.drop_left' length_slice

theorem slice_store : (b.store start l).slice start l.length = l := by
  apply List.ext_getElem length_slice
  intro i hi hl
  simp [slice, store, List.getElem?_eq_getElem hl]

theorem slice_store_of_le (h : m + n ≤ start) : (b.store start l).slice m n = b.slice m n := by
  refine List.map_congr_left fun i hi => if_neg ?_
  rw [List.mem_range] at hi
  omega

end Buffer

/-! ## The stream and its cursor -/

/-- The stream stands for the cursor: the buffer holds the bytes between the caller's position and
that of the file, and is not left. -/
structure AtCursor (s : FStreamFileInputStream) (c : Cursor) : Prop where
  bytes : s.fd.bytes = c.bytes
  position : s.fd.position = c.position + s.readAheadBytes
  ahead : s.readAheadBuffer.slice s.readAheadOffset s.readAheadBytes =
    (c.bytes.drop c.position).take s.readAheadBytes
  inBuffer : s.readAheadOffset + s.readAheadBytes ≤ kReadAheadBufferSize
  eof : s.fd.eof = true → c.bytes.length ≤ s.fd.position

variable {s : FStreamFileInputStream} {c : Cursor} {n : ℕ}

/-- The cursor `n` bytes on. -/
def Cursor.skip (c : Cursor) (n : ℕ) : Cursor := { c with position := c.position + n }

/-- The bytes read next. -/
def Cursor.next (c : Cursor) (n : ℕ) : List UInt8 := (c.bytes.drop c.position).take n

theorem Cursor.length_next : (c.next n).length = min n (c.bytes.length - c.position) := by
  rw [next, List.length_take, List.length_drop]

theorem Cursor.next_add (m : ℕ) : c.next (m + n) = c.next m ++ (c.skip m).next n := by
  rw [next, next, next, List.take_add, skip, List.drop_drop]

theorem Cursor.next_length_next : c.next (c.next n).length = c.next n := by
  unfold next
  rw [List.take_eq_take_iff, List.length_take]
  omega

theorem atCursor_opened (bytes : List UInt8) :
    AtCursor (FStreamFileInputStream.opened bytes) { bytes := bytes } :=
  ⟨rfl, rfl, rfl, Nat.zero_le _, fun h => Bool.noConfusion h⟩

namespace AtCursor

theorem ahead_le (h : AtCursor s c) : s.readAheadBytes ≤ c.bytes.length - c.position := by
  have hlen := congrArg List.length h.ahead
  rw [Buffer.length_slice, List.length_take, List.length_drop] at hlen
  omega

theorem slice_eq (h : AtCursor s c) (hn : n ≤ s.readAheadBytes) :
    s.readAheadBuffer.slice s.readAheadOffset n = c.next n := by
  rw [← Buffer.take_slice hn, h.ahead, List.take_take, Nat.min_eq_left hn]
  rfl

theorem consume (h : AtCursor s c) (hn : n ≤ s.readAheadBytes) :
    AtCursor (s.consume n) (c.skip n) := by
  have hle := h.inBuffer
  have hpos := h.position
  unfold FStreamFileInputStream.consume
  split_ifs with hall
  · subst hall
    refine ⟨h.bytes, hpos, ?_, Nat.zero_le _, h.eof⟩
    rw [List.take_zero]
    exact Buffer.slice_zero
  · refine ⟨h.bytes, ?_, ?_, ?_, h.eof⟩
    · show s.fd.position = c.position + n + (s.readAheadBytes - n)
      omega
    · show s.readAheadBuffer.slice (s.readAheadOffset + n) (s.readAheadBytes - n) =
        (c.bytes.drop (c.position + n)).take (s.readAheadBytes - n)
      rw [← Buffer.drop_slice hn, h.ahead, ← List.drop_drop, List.drop_take]
    · show s.readAheadOffset + n + (s.readAheadBytes - n) ≤ _
      omega

theorem fileReadBytes (h : AtCursor s c) (n : ℕ) :
    (s.fd.fileReadBytes n).1 = (c.skip s.readAheadBytes).next n ∧
      (s.fd.fileReadBytes n).2.bytes = c.bytes ∧
      (s.fd.fileReadBytes n).2.position =
        s.fd.position + ((c.skip s.readAheadBytes).next n).length ∧
      ((s.fd.fileReadBytes n).2.eof = true →
        c.bytes.length ≤ (s.fd.fileReadBytes n).2.position) := by
  have hgot : (s.fd.fileReadBytes n).1 = (c.skip s.readAheadBytes).next n := by
    unfold CFile.fileReadBytes Cursor.next Cursor.skip
    rw [h.bytes, h.position]
  have hposition : (s.fd.fileReadBytes n).2.position =
      s.fd.position + ((c.skip s.readAheadBytes).next n).length := by
    rw [← hgot]
    rfl
  refine ⟨hgot, h.bytes, hposition, fun heof => ?_⟩
  rw [hposition]
  have heof' : (s.fd.eof || (s.fd.fileReadBytes n).1.length < n) = true := heof
  rw [Bool.or_eq_true, decide_eq_true_eq, hgot, Cursor.length_next] at heof'
  rw [Cursor.length_next, h.position]
  unfold Cursor.skip at heof' ⊢
  dsimp only at heof' ⊢
  rcases heof' with heof' | hshort
  · have hle := h.eof heof'
    rw [h.position] at hle
    omega
  · omega

theorem copied (h : AtCursor s c) (n : ℕ) :
    let k := if s.readAheadBytes ≠ 0 then min n s.readAheadBytes else 0
    let s' := if s.readAheadBytes ≠ 0 then s.consume k else s
    k ≤ n ∧ s.readAheadBuffer.slice s.readAheadOffset k = c.next k ∧ AtCursor s' (c.skip k) ∧
      (k < n → s'.readAheadBytes = 0) := by
  intro k s'
  by_cases hra : s.readAheadBytes = 0
  · have hk : k = 0 := if_neg (not_not.mpr hra)
    have hs : s' = s := if_neg (not_not.mpr hra)
    rw [hk, hs]
    exact ⟨Nat.zero_le _, Buffer.slice_zero, h, fun _ => hra⟩
  · have hk : k = min n s.readAheadBytes := if_pos hra
    have hs : s' = s.consume k := if_pos hra
    have hle : k ≤ s.readAheadBytes := by omega
    refine ⟨by omega, h.slice_eq hle, hs ▸ h.consume hle, fun hlt => ?_⟩
    have hall : k = s.readAheadBytes := by omega
    rw [hs, FStreamFileInputStream.consume, if_pos hall]

theorem readFromReadAheadBuffer (h : AtCursor s c) (n : ℕ) :
    ∃ k ≤ n, (s.readFromReadAheadBuffer n).1 = c.next k ∧ (c.next k).length = k ∧
      AtCursor (s.readFromReadAheadBuffer n).2 (c.skip k) ∧
      (k < n → (s.readFromReadAheadBuffer n).2.readAheadBytes = 0) := by
  obtain ⟨hk, hcopied, htracks, hempty⟩ := h.copied n
  unfold FStreamFileInputStream.readFromReadAheadBuffer
  dsimp only at hk hcopied htracks hempty ⊢
  generalize (if s.readAheadBytes ≠ 0 then min n s.readAheadBytes else 0) = k at *
  generalize (if s.readAheadBytes ≠ 0 then s.consume k else s) = s' at *
  have hlen : (c.next k).length = k := by rw [← hcopied, Buffer.length_slice]
  by_cases hsmall : 0 < n - k ∧ n - k < kReadAheadBufferSize
  · rw [if_pos hsmall]
    have hra := hempty (by omega)
    obtain ⟨hgot, hbytes, hposition, heof⟩ := htracks.fileReadBytes kReadAheadBufferSize
    have hskip : (c.skip k).skip s'.readAheadBytes = c.skip k := by
      rw [hra]
      rfl
    rw [hskip] at hgot hposition
    have hfd := htracks.position
    rw [hra, Nat.add_zero] at hfd
    rw [hgot]
    generalize hg : (c.skip k).next kReadAheadBufferSize = got at *
    have hgotlen : got.length ≤ kReadAheadBufferSize := by
      rw [← hg, Cursor.length_next]
      exact Nat.min_le_left _ _
    obtain ⟨m, hm⟩ : ∃ m, min (n - k) got.length = m := ⟨_, rfl⟩
    have hmlen : m ≤ got.length := by omega
    have hstore : (s'.readAheadBuffer.store 0 got).slice 0 got.length = got := Buffer.slice_store
    have hwritten : (s'.readAheadBuffer.store 0 got).slice 0 m = (c.skip k).next m := by
      rw [← Buffer.take_slice hmlen, hstore, ← hg, Cursor.next, Cursor.next, List.take_take,
        Nat.min_eq_left (by omega)]
    have hnext : c.next (k + m) = c.next k ++ (c.skip k).next m := Cursor.next_add k
    have hmnext : ((c.skip k).next m).length = m := by rw [← hwritten, Buffer.length_slice]
    refine ⟨k + m, by omega, ?_, ?_, ?_, ?_⟩
    · rw [hm, hcopied, hwritten, hnext]
    · rw [hnext, List.length_append, hlen, hmnext]
    · rw [hm]
      refine ⟨hbytes, ?_, ?_, ?_, heof⟩
      · show (s'.fd.fileReadBytes kReadAheadBufferSize).2.position =
          c.position + (k + m) + (got.length - m)
        rw [hposition, hfd]
        show c.position + k + got.length = _
        omega
      · show (s'.readAheadBuffer.store 0 got).slice m (got.length - m) =
          (c.bytes.drop (c.position + (k + m))).take (got.length - m)
        have hrest := @Buffer.drop_slice (s'.readAheadBuffer.store 0 got) 0 _ _ hmlen
        rw [Nat.zero_add, hstore] at hrest
        have hgot' : got = (c.skip k).next got.length := by
          rw [← hg]
          exact Cursor.next_length_next.symm
        rw [← hrest]
        conv_lhs => rw [hgot']
        rw [Cursor.next, List.drop_take, Cursor.skip, List.drop_drop, Nat.add_assoc]
      · show m + (got.length - m) ≤ _
        omega
    · intro hlt
      show got.length - min (n - k) got.length = 0
      omega
  · rw [if_neg hsmall]
    exact ⟨k, hk, hcopied, hlen, htracks, hempty⟩

/-- **`ReadBytes`** reads what the caller has before him. -/
theorem readBytes (h : AtCursor s c) (n : ℕ) :
    (s.readBytes n).1 = ((c.next n).length = n : Bool) ∧ (s.readBytes n).2.1 = c.next n ∧
      AtCursor (s.readBytes n).2.2 (c.skip (c.next n).length) := by
  obtain ⟨k, hk, hcopied, hlen, htracks, hempty⟩ := h.readFromReadAheadBuffer n
  unfold FStreamFileInputStream.readBytes
  dsimp only
  rw [hcopied, hlen]
  by_cases hn : n - k = 0
  · obtain rfl : n = k := by omega
    rw [if_neg (not_not.mpr hn), hlen]
    exact ⟨by simp, rfl, htracks⟩
  · rw [if_pos hn]
    have hra := hempty (by omega)
    obtain ⟨hgot, hbytes, hposition, heof⟩ := htracks.fileReadBytes (n - k)
    have hskip : (c.skip k).skip (s.readFromReadAheadBuffer n).2.readAheadBytes = c.skip k := by
      rw [hra]
      rfl
    rw [hskip] at hgot hposition
    have hnext : c.next n = c.next k ++ (c.skip k).next (n - k) := by
      rw [← Cursor.next_add, Nat.add_sub_cancel' hk]
    have hlength : (c.next n).length = k + ((c.skip k).next (n - k)).length := by
      rw [hnext, List.length_append, hlen]
    refine ⟨?_, ?_, ?_⟩
    · rw [hgot, hlength]
      exact decide_eq_decide.mpr (by omega)
    · rw [hgot, hnext]
    · refine ⟨hbytes, ?_, ?_, htracks.inBuffer, heof⟩
      · have hfd := htracks.position
        rw [hra] at hfd
        show (_ : CFile).position = c.position + (c.next n).length + _
        rw [hposition, hfd, hlength, hra]
        show c.position + k + 0 + _ = _
        omega
      · show Buffer.slice _ _ (s.readFromReadAheadBuffer n).2.readAheadBytes =
          List.take (s.readFromReadAheadBuffer n).2.readAheadBytes _
        rw [hra, List.take_zero]
        exact Buffer.slice_zero

/-- **`PeekBytes`** shows what the caller has before him. -/
theorem peekBytes (h : AtCursor s c) (n : ℕ) :
    (s.peekBytes n).1 = c.next (min n kMaxPeekBytes) ∧ AtCursor (s.peekBytes n).2 c := by
  unfold FStreamFileInputStream.peekBytes
  dsimp only
  have hmax : min n kMaxPeekBytes ≤ kReadAheadBufferSize :=
    (Nat.min_le_right _ _).trans (by decide)
  generalize min n kMaxPeekBytes = n at *
  have hle := h.inBuffer
  by_cases hshort : s.readAheadBytes < n
  · rw [if_pos hshort]
    obtain ⟨hgot, hbytes, hposition, heof⟩ :=
      h.fileReadBytes (kReadAheadBufferSize - s.readAheadBytes)
    rw [hgot]
    generalize hg : (c.skip s.readAheadBytes).next (kReadAheadBufferSize - s.readAheadBytes) = got
      at *
    -- the filled buffer
    let buffer := (s.readAheadBuffer.store 0
      (s.readAheadBuffer.slice s.readAheadOffset s.readAheadBytes)).store s.readAheadBytes got
    have hmoved : buffer.slice 0 s.readAheadBytes = c.next s.readAheadBytes := by
      have h0 := @Buffer.slice_store s.readAheadBuffer 0
        (s.readAheadBuffer.slice s.readAheadOffset s.readAheadBytes)
      rw [Buffer.length_slice] at h0
      rw [Buffer.slice_store_of_le (by omega), h0]
      exact h.ahead
    have hfull : buffer.slice 0 (s.readAheadBytes + got.length) =
        c.next kReadAheadBufferSize := by
      have hsplit : kReadAheadBufferSize =
          s.readAheadBytes + (kReadAheadBufferSize - s.readAheadBytes) := by omega
      rw [Buffer.slice_add, hmoved, Nat.zero_add, Buffer.slice_store, hsplit, Cursor.next_add, hg]
    have hra : s.readAheadBytes + got.length = (c.next kReadAheadBufferSize).length := by
      rw [← hfull, Buffer.length_slice]
    constructor
    · show buffer.slice 0 (min n (s.readAheadBytes + got.length)) = c.next n
      rw [← Buffer.take_slice (Nat.min_le_right n _), hfull, hra, Cursor.length_next, Cursor.next,
        List.take_take, ← Cursor.next_length_next, Cursor.length_next]
      exact congrArg (List.take · _) (by omega)
    · refine ⟨hbytes, ?_, ?_, ?_, heof⟩
      · show (s.fd.fileReadBytes _).2.position = c.position + (s.readAheadBytes + got.length)
        rw [hposition, h.position]
        omega
      · show buffer.slice 0 (s.readAheadBytes + got.length) =
          c.next (s.readAheadBytes + got.length)
        rw [hfull, hra, Cursor.next_length_next]
      · show 0 + (s.readAheadBytes + got.length) ≤ _
        rw [hra, Cursor.length_next]
        omega
  · rw [if_neg hshort]
    refine ⟨?_, h⟩
    rw [Nat.min_eq_left (not_lt.mp hshort)]
    exact h.slice_eq (not_lt.mp hshort)

theorem seekFd (h : AtCursor s c) {offset target : ℤ} {origin : FileSeekOrigin}
    (ht : origin.target s.fd.bytes.length s.fd.position offset = target) :
    (s.seekFd offset origin).1 = (0 ≤ target : Bool) ∧
      (0 ≤ target → AtCursor (s.seekFd offset origin).2 { c with position := target.toNat }) := by
  unfold FStreamFileInputStream.seekFd CFile.fileSeek
  dsimp only
  rw [ht]
  by_cases hneg : target < 0
  · rw [if_pos hneg]
    refine ⟨?_, fun h0 => absurd hneg (not_lt.mpr h0)⟩
    exact (decide_eq_false (not_le.mpr hneg)).symm
  · rw [if_neg hneg]
    refine ⟨(decide_eq_true (not_lt.mp hneg)).symm, fun _ => ?_⟩
    exact ⟨h.bytes, rfl, Buffer.slice_zero, Nat.zero_le _, fun h => Bool.noConfusion h⟩

theorem le_of_isEof (h : AtCursor s c) (heof : s.isEof = true) : c.bytes.length ≤ c.position := by
  unfold FStreamFileInputStream.isEof at heof
  rw [Bool.and_eq_true, beq_iff_eq] at heof
  have hle := h.eof heof.2
  rw [h.position, heof.1] at hle
  exact hle

theorem isEof_peekBytes (h : AtCursor s c) (hend : c.bytes.length ≤ c.position) (hn : 0 < n) :
    (s.peekBytes n).2.isEof = true := by
  have hra : s.readAheadBytes = 0 := by
    have hle := h.ahead_le
    omega
  have hshort : s.readAheadBytes < min n kMaxPeekBytes := by
    rw [hra]
    exact lt_min hn (by decide)
  obtain ⟨hgot, -⟩ := h.fileReadBytes (kReadAheadBufferSize - s.readAheadBytes)
  have hnil : ((c.skip s.readAheadBytes).next (kReadAheadBufferSize - s.readAheadBytes)).length =
      0 := by
    rw [Cursor.length_next]
    show min _ (c.bytes.length - (c.position + s.readAheadBytes)) = 0
    omega
  unfold FStreamFileInputStream.peekBytes FStreamFileInputStream.isEof
  dsimp only
  rw [if_pos hshort]
  dsimp only
  rw [hgot, hnil, hra]
  rw [hra] at hgot hnil
  have heof : (s.fd.fileReadBytes (kReadAheadBufferSize - 0)).2.eof =
      (s.fd.eof || (s.fd.fileReadBytes (kReadAheadBufferSize - 0)).1.length <
        kReadAheadBufferSize - 0) := rfl
  rw [heof, hgot, hnil]
  simp [kReadAheadBufferSize]

/-- **`FileSeek`** goes where the caller wants to go, if it succeeds. -/
theorem fileSeek (h : AtCursor s c) (offset : ℤ) (origin : FileSeekOrigin) :
    let target := origin.target c.bytes.length c.position offset
    (s.fileSeek offset origin).1 = (0 ≤ target : Bool) ∧
      (0 ≤ target → AtCursor (s.fileSeek offset origin).2 { c with position := target.toNat }) := by
  intro target
  have hpos := h.position
  unfold FStreamFileInputStream.fileSeek
  by_cases hcur : s.readAheadBytes ≠ 0 ∧ origin = .fileSeekCurrent
  · rw [if_pos hcur]
    obtain ⟨-, rfl⟩ := hcur
    have htarget : target = c.position + offset := rfl
    by_cases hin : 0 < offset ∧ offset ≤ s.readAheadBytes
    · rw [if_pos hin]
      have htracks := h.consume (n := offset.toNat) (by omega)
      have hskip : c.skip offset.toNat = { c with position := target.toNat } := by
        rw [Cursor.skip, htarget]
        congr 1
        omega
      exact ⟨(decide_eq_true (by omega)).symm, fun _ => hskip ▸ htracks⟩
    · rw [if_neg hin]
      refine h.seekFd ?_
      show (s.fd.position : ℤ) + (offset - s.readAheadBytes) = target
      omega
  · rw [if_neg hcur]
    refine h.seekFd ?_
    show origin.target _ _ _ = origin.target _ _ _
    rw [h.bytes]
    cases origin with
    | fileSeekSet => rfl
    | fileSeekEnd => rfl
    | fileSeekCurrent =>
      have hra : s.readAheadBytes = 0 := by
        by_contra hne
        exact hcur ⟨hne, rfl⟩
      show (s.fd.position : ℤ) + offset = c.position + offset
      omega

theorem not_isEof_peekBytes (hshown : (s.peekBytes n).1 ≠ []) :
    (s.peekBytes n).2.isEof = false := by
  have hra : (s.peekBytes n).2.readAheadBytes ≠ 0 := by
    intro hzero
    apply hshown
    have hslice : (s.peekBytes n).1 = (s.peekBytes n).2.readAheadBuffer.slice
        (s.peekBytes n).2.readAheadOffset
        (min (min n kMaxPeekBytes) (s.peekBytes n).2.readAheadBytes) := rfl
    rw [hslice, hzero, Nat.min_zero]
    exact Buffer.slice_zero
  unfold FStreamFileInputStream.isEof
  rw [beq_false_of_ne hra, Bool.false_and]

theorem isEof_readBytes (h : AtCursor s c) (hshort : (c.next n).length < n) :
    (s.readBytes n).2.2.isEof = true := by
  obtain ⟨k, hk, hcopied, hlen, htracks, hempty⟩ := h.readFromReadAheadBuffer n
  have hlength : (c.next n).length = k + ((c.skip k).next (n - k)).length := by
    have hnext : c.next n = c.next k ++ (c.skip k).next (n - k) := by
      rw [← Cursor.next_add, Nat.add_sub_cancel' hk]
    rw [hnext, List.length_append, hlen]
  have hlt : k < n := by omega
  have hra := hempty hlt
  obtain ⟨hgot, -⟩ := htracks.fileReadBytes (n - k)
  have hskip : (c.skip k).skip (s.readFromReadAheadBuffer n).2.readAheadBytes = c.skip k := by
    rw [hra]
    rfl
  rw [hskip] at hgot
  unfold FStreamFileInputStream.readBytes FStreamFileInputStream.isEof
  dsimp only
  rw [hcopied, hlen, if_pos (by omega)]
  dsimp only
  have heof : ∀ f : CFile, (f.fileReadBytes (n - k)).2.eof =
      (f.eof || (f.fileReadBytes (n - k)).1.length < n - k) := fun _ => rfl
  rw [heof, hgot, hra, decide_eq_true (by omega), Bool.or_true]
  rfl

theorem fileTell (h : AtCursor s c) : s.fileTell = c.position := by
  have hpos := h.position
  unfold FStreamFileInputStream.fileTell
  omega

end AtCursor

theorem atCursor_answer (h : AtCursor s c) (call : StreamCall) :
    (s.answer call).1 = (c.answer call).1 ∧
      ((s.answer call).1 ≠ .sought false → AtCursor (s.answer call).2 (c.answer call).2) := by
  cases call with
  | readBytes n =>
    obtain ⟨hsuccess, hwritten, htracks⟩ := h.readBytes n
    exact ⟨congrArg₂ StreamReply.read hsuccess hwritten, fun _ => htracks⟩
  | peekBytes n =>
    obtain ⟨hwritten, htracks⟩ := h.peekBytes n
    exact ⟨congrArg StreamReply.peeked hwritten, fun _ => htracks⟩
  | fileSeek offset origin =>
    obtain ⟨hsuccess, htracks⟩ := h.fileSeek offset origin
    unfold FStreamFileInputStream.answer Cursor.answer
    dsimp only at hsuccess htracks ⊢
    rw [hsuccess]
    by_cases hneg : origin.target c.bytes.length c.position offset < 0
    · rw [if_pos hneg, decide_eq_false (not_le.mpr hneg)]
      exact ⟨rfl, fun h => absurd rfl h⟩
    · rw [if_neg hneg, decide_eq_true (not_lt.mp hneg)]
      exact ⟨rfl, fun _ => htracks (not_lt.mp hneg)⟩
  | fileTell => exact ⟨congrArg StreamReply.position h.fileTell, fun _ => h⟩

/-- **The stream is the plain file**: whatever is called, `FStreamFileInputStream` answers as a
position in the bytes of the file would, up to a seek to before the start. -/
theorem replies_eq (bytes : List UInt8) (calls : List StreamCall) :
    replies FStreamFileInputStream.answer calls (.opened bytes) =
      replies Cursor.answer calls { bytes := bytes } := by
  suffices h : ∀ calls s c, AtCursor s c →
      replies FStreamFileInputStream.answer calls s = replies Cursor.answer calls c from
    h calls _ _ (atCursor_opened bytes)
  intro calls
  induction calls with
  | nil => exact fun _ _ _ => rfl
  | cons call calls ih =>
    intro s c h
    obtain ⟨hreply, htracks⟩ := atCursor_answer h call
    unfold replies
    dsimp only
    rw [hreply] at htracks ⊢
    by_cases hr : (c.answer call).1 = .sought false
    · rw [if_pos hr, if_pos hr]
    · rw [if_neg hr, if_neg hr, ih _ _ (htracks hr)]

end Dive
