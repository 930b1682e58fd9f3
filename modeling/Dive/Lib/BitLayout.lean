import Mathlib.Data.Int.Notation
import Mathlib.Data.List.Nodup
import Mathlib.Data.List.Perm.Subperm

/-!
# Structures of bit fields

* `BitMember`, `BitRange`: the members of a structure of bit fields, and the bits of one of them.
* `firstBit`, `bitRanges`, `endBit`: where the members are, from the least significant bit on, in
  units of `unit` bits that no member goes over.
* `AscendingBits`, `padded`, **`bitRanges_padded`**: ranges in ascending order inside one unit, with
  unnamed members in the gaps, come out where they are to be.
* **`eq_of_sublist_of_disjoint`**: a part of disjoint ranges that has all of them leaves out none.
-/

namespace Dive

variable {ν : Type*}

/-- A member of a structure of bit fields; one without a name only takes room. -/
structure BitMember (ν : Type*) where
  name : Option ν
  width : ℤ
  deriving DecidableEq, Repr

/-- The bits `low` to `high`, under a name. -/
structure BitRange (ν : Type*) where
  name : ν
  low : ℤ
  high : ℤ
  deriving DecidableEq, Repr

/-- The range has a bit, and lies in the first `unit` bits. -/
def BitRange.Within (unit : ℤ) (r : BitRange ν) : Prop := r.low ≤ r.high ∧ r.high < unit

/-- The two ranges have no bit in common. -/
def BitRange.Apart (r s : BitRange ν) : Prop := r.high < s.low ∨ s.high < r.low

instance (unit : ℤ) : DecidablePred (BitRange.Within (ν := ν) unit) :=
  fun _ => inferInstanceAs (Decidable (_ ∧ _))

instance : DecidableRel (BitRange.Apart (ν := ν)) := fun _ _ => inferInstanceAs (Decidable (_ ∨ _))

/-! ## The layout -/

/-- The first bit of a member of `width` bits after bit `cur`. -/
def firstBit (unit cur width : ℤ) : ℤ :=
  if cur % unit + width ≤ unit then cur else (cur / unit + 1) * unit

/-- The bits of the named members, from bit `cur` on. -/
def bitRanges (unit : ℤ) : ℤ → List (BitMember ν) → List (BitRange ν)
  | _, [] => []
  | cur, m :: ms =>
    let low := firstBit unit cur m.width
    (m.name.map fun name => ⟨name, low, low + m.width - 1⟩).toList ++
      bitRanges unit (low + m.width) ms

/-- The bit after the last member. -/
def endBit (unit : ℤ) : ℤ → List (BitMember ν) → ℤ
  | cur, [] => cur
  | cur, m :: ms => endBit unit (firstBit unit cur m.width + m.width) ms

theorem firstBit_of_le {unit cur width : ℤ} (hcur : 0 ≤ cur) (hwidth : 0 < width)
    (h : cur + width ≤ unit) : firstBit unit cur width = cur := by
  have hmod : cur % unit = cur := Int.emod_eq_of_lt hcur (by omega)
  rw [firstBit, hmod, if_pos h]

/-! ## Ranges in ascending order -/

/-- The ranges follow one another from bit `cur` on, inside the first `unit` bits. -/
def AscendingBits (unit : ℤ) : ℤ → List (BitRange ν) → Prop
  | _, [] => True
  | cur, r :: rs => cur ≤ r.low ∧ r.Within unit ∧ AscendingBits unit (r.high + 1) rs

instance decidableAscendingBits (unit : ℤ) :
    ∀ (cur : ℤ) (rs : List (BitRange ν)), Decidable (AscendingBits unit cur rs)
  | _, [] => .isTrue trivial
  | _, r :: rs =>
    have := decidableAscendingBits unit (r.high + 1) rs
    inferInstanceAs (Decidable (_ ∧ _ ∧ _))

/-- The bit after the last range. -/
def lastBit : ℤ → List (BitRange ν) → ℤ
  | cur, [] => cur
  | _, r :: rs => lastBit (r.high + 1) rs

/-- The members for the ranges, with an unnamed one in every gap. -/
def padded : ℤ → List (BitRange ν) → List (BitMember ν)
  | _, [] => []
  | cur, r :: rs =>
    (if cur ≠ r.low then [⟨none, r.low - cur⟩] else []) ++
      ⟨some r.name, r.high - r.low + 1⟩ :: padded (r.high + 1) rs

theorem padded_append (cur : ℤ) (rs more : List (BitRange ν)) :
    padded cur (rs ++ more) = padded cur rs ++ padded (lastBit cur rs) more := by
  induction rs generalizing cur with
  | nil => rfl
  | cons r rs ih =>
    rw [List.cons_append, padded, padded, ih, List.append_assoc, List.cons_append, lastBit]

theorem AscendingBits.append {unit cur : ℤ} {rs more : List (BitRange ν)}
    (h : AscendingBits unit cur rs) (hmore : AscendingBits unit (lastBit cur rs) more) :
    AscendingBits unit cur (rs ++ more) := by
  induction rs generalizing cur with
  | nil => exact hmore
  | cons r rs ih =>
    exact ⟨h.1, h.2.1, ih h.2.2 hmore⟩

theorem AscendingBits.of_append {unit cur : ℤ} {rs more : List (BitRange ν)}
    (h : AscendingBits unit cur (rs ++ more)) :
    AscendingBits unit cur rs ∧ AscendingBits unit (lastBit cur rs) more := by
  induction rs generalizing cur with
  | nil => exact ⟨trivial, h⟩
  | cons r rs ih =>
    have hrest := ih h.2.2
    exact ⟨⟨h.1, h.2.1, hrest.1⟩, hrest.2⟩

theorem AscendingBits.within {unit cur : ℤ} {rs : List (BitRange ν)}
    (h : AscendingBits unit cur rs) : ∀ r ∈ rs, r.Within unit := by
  induction rs generalizing cur with
  | nil => simp
  | cons r rs ih =>
    intro s hs
    cases List.mem_cons.mp hs with
    | inl heq => rw [heq]; exact h.2.1
    | inr hmem => exact ih h.2.2 s hmem

theorem AscendingBits.lastBit_le {unit cur : ℤ} {rs : List (BitRange ν)}
    (h : AscendingBits unit cur rs) (hcur : cur ≤ unit) : lastBit cur rs ≤ unit := by
  induction rs generalizing cur with
  | nil => exact hcur
  | cons r rs ih =>
    have hhigh : r.high < unit := h.2.1.2
    exact ih h.2.2 (by omega)

theorem layout_gap {unit cur low : ℤ} (hcur : 0 ≤ cur) (hlow : cur ≤ low) (hunit : low ≤ unit)
    (ms : List (BitMember ν)) :
    bitRanges unit cur ((if cur ≠ low then [⟨none, low - cur⟩] else []) ++ ms) =
        bitRanges unit low ms ∧
      endBit unit cur ((if cur ≠ low then [⟨none, low - cur⟩] else []) ++ ms) =
        endBit unit low ms := by
  by_cases h : cur = low
  · rw [if_neg (not_not_intro h), h]
    exact ⟨rfl, rfl⟩
  · rw [if_pos h]
    have hfirst : firstBit unit cur (low - cur) = cur :=
      firstBit_of_le hcur (by omega) (by omega)
    have hlow : cur + (low - cur) = low := by omega
    simp [bitRanges, endBit, hfirst, hlow]

/-- **Ranges in ascending order come out where they are to be.** -/
theorem bitRanges_padded {unit cur : ℤ} {rs : List (BitRange ν)} (hcur : 0 ≤ cur)
    (h : AscendingBits unit cur rs) :
    bitRanges unit cur (padded cur rs) = rs ∧
      endBit unit cur (padded cur rs) = lastBit cur rs := by
  induction rs generalizing cur with
  | nil => exact ⟨rfl, rfl⟩
  | cons r rs ih =>
    have hlow : cur ≤ r.low := h.1
    have hwithin : r.low ≤ r.high ∧ r.high < unit := h.2.1
    have hrest := ih (by omega) h.2.2
    have hunit : r.low ≤ unit := by omega
    have hgap := layout_gap hcur hlow hunit
      (⟨some r.name, r.high - r.low + 1⟩ :: padded (r.high + 1) rs)
    have hfirst : firstBit unit r.low (r.high - r.low + 1) = r.low :=
      firstBit_of_le (by omega) (by omega) (by omega)
    have hend : r.low + (r.high - r.low + 1) = r.high + 1 := by omega
    rw [padded, hgap.1, hgap.2, bitRanges, endBit, hfirst, hend, hrest.1, hrest.2]
    have hhigh : r.high + 1 - 1 = r.high := by omega
    simp [hhigh, lastBit]

/-! ## Disjoint ranges -/

theorem nodup_of_apart {unit : ℤ} {rs : List (BitRange ν)} (hwithin : ∀ r ∈ rs, r.Within unit)
    (h : rs.Pairwise BitRange.Apart) : rs.Nodup := by
  refine List.Pairwise.imp_of_mem ?_ h
  intro r s hr _ hapart heq
  have hr : r.low ≤ r.high := (hwithin r hr).1
  rw [← heq] at hapart
  cases hapart with
  | inl hlt => omega
  | inr hlt => omega

/-- **A part of disjoint ranges that has all of them leaves out none.** -/
theorem eq_of_sublist_of_disjoint {unit : ℤ} {part rs : List (BitRange ν)}
    (hsub : part.Sublist rs) (hwithin : ∀ r ∈ rs, r.Within unit)
    (h : rs.Pairwise BitRange.Apart) (hall : ∀ r ∈ rs, r ∈ part) : part = rs := by
  have hnodup := nodup_of_apart hwithin h
  have hle : rs.length ≤ part.length := (List.subperm_of_subset hnodup hall).length_le
  exact hsub.eq_of_length_le hle

end Dive
