import Dive.Lib.Source
import Dive.Memory.Manager

/-!
# The file reader

* `Archive`: an open archive handle; a call of `archive_read_data` on it is a `Source.pull`.
* `FileReader.read`: the loop of `FileReader::Read`.
* **`read_returned`**: what it returns depends only on the bytes before the first error, and on whether
  that is an error at all: all that was asked, or what is left before the end, or the error.
-/

namespace Dive

/-- The handle of an open archive, by the data that it yields. -/
abbrev Archive : Type := Source UInt8

namespace FileReader

open Source

/-- The loop of `Read` with `nbytes` left and `written` behind it. An iteration that goes on
writes at least one byte, so `nbytes` of them are enough. -/
def readLoop : ℕ → Archive → ℕ → List UInt8 → Transfer UInt8
  | 0, file, _, written => ⟨written.length, written, file⟩
  | fuel + 1, file, nbytes, written =>
    if 0 < nbytes then
      let n := file.pull nbytes
      if n.returned < 0 then ⟨n.returned, written, n.rest⟩
      else if n.returned = 0 then ⟨written.length, written, n.rest⟩
      else readLoop fuel n.rest (nbytes - n.returned.toNat) (written ++ n.items)
    else ⟨written.length, written, file⟩

/-- `Read`, without the buffer: what it returns and what it writes. -/
def read (file : Archive) (nbytes : ℕ) : Transfer UInt8 := readLoop nbytes file nbytes []

variable {file : Archive} {fuel nbytes : ℕ} {written : List UInt8}

/-- The number that `Read` returns at the first error or the end, after `n` bytes. -/
def stopped (stop : Option ℕ) (n : ℕ) : ℤ := stop.elim n errorCode

theorem stopped_le (stop : Option ℕ) (n : ℕ) : stopped stop n ≤ n := by
  cases stop with
  | none => exact le_refl _
  | some code => exact (errorCode_lt code).le.trans (Int.natCast_nonneg n)

/-- **The loop**, by what the archive yields before the first error or the end. -/
theorem readLoop_spec (h : nbytes ≤ fuel) :
    (readLoop fuel file nbytes written).items = written ++ file.items.take nbytes ∧
      (readLoop fuel file nbytes written).returned =
        (if nbytes ≤ file.items.length then ((written.length + nbytes : ℕ) : ℤ)
          else stopped file.stop (written.length + file.items.length)) ∧
      (readLoop fuel file nbytes written).rest.size +
        (file.items.take nbytes).length = file.size ∧
      (nbytes ≤ file.items.length ∨ file.stop = none →
        (readLoop fuel file nbytes written).rest.items = file.items.drop nbytes ∧
          (readLoop fuel file nbytes written).rest.stop = file.stop) := by
  induction fuel generalizing file nbytes written with
  | zero =>
    obtain rfl : nbytes = 0 := by omega
    simp [readLoop]
  | succ fuel ih =>
    by_cases hn : 0 < nbytes
    · by_cases hnil : file.items = []
      · have hp := @pull_of_items_nil _ _ nbytes hnil
        cases hstop : file.stop with
        | none =>
          rw [hstop] at hp
          have hread : readLoop (fuel + 1) file nbytes written = ⟨written.length, written, file⟩ := by
            simp [readLoop, hn, hp.1, hp.2.2.2 rfl]
          simp [hread, hnil, stopped, hstop]
        | some code =>
          rw [hstop] at hp
          have hread : readLoop (fuel + 1) file nbytes written =
              ⟨errorCode code, written, (file.pull nbytes).rest⟩ := by
            simp [readLoop, hn, hp.1, errorCode_lt]
          simp [hread, hnil, hn.ne', stopped, hp.2.2.1]
      · obtain ⟨k, hk, hkn, hkl, hret, hitems, hrest, hstop, hsize⟩ :=
          pull_of_items_ne_nil hnil hn
        have hread : readLoop (fuel + 1) file nbytes written =
            readLoop fuel (file.pull nbytes).rest (nbytes - k) (written ++ file.items.take k) := by
          have hneg : ¬ (k : ℤ) < 0 := by omega
          have hzero : ¬ (k : ℤ) = 0 := by omega
          rw [readLoop, if_pos hn]
          simp only [hret, hitems, if_neg hneg, if_neg hzero, Int.toNat_natCast]
        have hlen : (file.items.take k).length = k := by
          rw [List.length_take]
          omega
        have hdrop : (file.items.drop k).length = file.items.length - k := List.length_drop
        have htake : file.items.take k ++ (file.items.drop k).take (nbytes - k) =
            file.items.take nbytes := by
          rw [← List.take_add, Nat.add_sub_cancel' hkn]
        obtain ⟨h1, h2, h3, h4⟩ := @ih (file.pull nbytes).rest (nbytes - k)
          (written ++ file.items.take k) (by omega)
        rw [hread]
        refine ⟨?_, ?_, ?_, ?_⟩
        · rw [h1, hrest, List.append_assoc, htake]
        · rw [h2, hrest, hstop, List.length_append, hlen, hdrop]
          by_cases hle : nbytes ≤ file.items.length
          · rw [if_pos (by omega), if_pos hle]
            congr 1
            omega
          · rw [if_neg (by omega), if_neg hle]
            congr 1
            omega
        · rw [hrest] at h3
          rw [← htake, List.length_append, hlen]
          omega
        · intro hor
          rw [hrest, hstop, hdrop] at h4
          obtain ⟨h5, h6⟩ := h4 (hor.imp_left fun hle => by omega)
          refine ⟨?_, h6⟩
          rw [h5, List.drop_drop, Nat.add_sub_cancel' hkn]
    · obtain rfl : nbytes = 0 := by omega
      simp [readLoop]

theorem read_items : (read file nbytes).items = file.items.take nbytes := by
  rw [read, (readLoop_spec (le_refl _)).1, List.nil_append]

/-- **What `Read` returns.** -/
theorem read_returned : (read file nbytes).returned =
    if nbytes ≤ file.items.length then (nbytes : ℤ) else stopped file.stop file.items.length := by
  have h := (@readLoop_spec file nbytes nbytes [] (le_refl nbytes)).2.1
  simpa [read] using h

theorem read_size :
    (read file nbytes).rest.size + (file.items.take nbytes).length = file.size :=
  (readLoop_spec (le_refl _)).2.2.1

theorem read_rest (h : nbytes ≤ file.items.length ∨ file.stop = none) :
    (read file nbytes).rest.items = file.items.drop nbytes ∧
      (read file nbytes).rest.stop = file.stop :=
  (readLoop_spec (le_refl _)).2.2.2 h

theorem read_full_iff : (read file nbytes).returned = nbytes ↔ nbytes ≤ file.items.length := by
  rw [read_returned]
  split_ifs with h
  · simp [h]
  · have := stopped_le file.stop file.items.length
    constructor
    · intro he
      omega
    · exact fun hle => absurd hle h

theorem read_zero_iff (hn : 0 < nbytes) :
    (read file nbytes).returned = 0 ↔ file.items = [] ∧ file.stop = none := by
  rw [read_returned, ← List.length_eq_zero_iff]
  split_ifs with h
  · omega
  · cases hs : file.stop with
    | none => simp [stopped]
    | some code =>
      have := errorCode_lt code
      simp only [stopped, Option.elim, reduceCtorEq, and_false, iff_false]
      omega

theorem read_pos (h : 0 < (read file nbytes).returned) :
    0 < (file.items.take nbytes).length := by
  rw [read_returned] at h
  rw [List.length_take]
  split_ifs at h with hle
  · omega
  · have := h.trans_le (stopped_le file.stop file.items.length)
    omega

end FileReader

end Dive
