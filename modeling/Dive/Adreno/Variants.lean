import Mathlib.Data.Fintype.Defs
import Mathlib.Data.List.Induction
import Mathlib.Data.Nat.Bitwise

/-!
# Variants of the GPU

* `GPUVariant`, `setGPUID`: the variants, and the one that is set for a GPU.
* `getGPUVariantsBitField`: the bits of a `variants` attribute.
-/

namespace Dive.Adreno

/-- `GPUVariantType`, but for `kGPUVariantNone`. -/
inductive GPUVariant
  | kA2XX
  | kA3XX
  | kA4XX
  | kA5XX
  | kA6XX
  | kA7XX
  | kA8XX
  deriving DecidableEq, Repr

namespace GPUVariant

/-- The bit of a variant. -/
def index : GPUVariant → ℕ
  | kA2XX => 0
  | kA3XX => 1
  | kA4XX => 2
  | kA5XX => 3
  | kA6XX => 4
  | kA7XX => 5
  | kA8XX => 6

/-- `GetGPUStr`. -/
def str : GPUVariant → String
  | kA2XX => "A2XX"
  | kA3XX => "A3XX"
  | kA4XX => "A4XX"
  | kA5XX => "A5XX"
  | kA6XX => "A6XX"
  | kA7XX => "A7XX"
  | kA8XX => "A8XX"

def all : List GPUVariant := [kA2XX, kA3XX, kA4XX, kA5XX, kA6XX, kA7XX, kA8XX]

theorem mem_all (v : GPUVariant) : v ∈ all := by
  cases v <;> decide

instance : Fintype GPUVariant where
  elems := ⟨all, by decide⟩
  complete := mem_all

theorem index_lt (v : GPUVariant) : v.index < 7 := by
  cases v <;> decide

theorem index_injective : Function.Injective index := by
  intro v w h
  cases v <;> cases w <;> first | rfl | cases h

theorem length_str (v : GPUVariant) : v.str.toList.length = 4 := by
  cases v <;> rfl

end GPUVariant

/-- The variant that `SetGPUID` sets; `none` is `kGPUVariantNone`. -/
def setGPUID (gpuId : UInt32) : Option GPUVariant :=
  match (gpuId / 100).toNat with
  | 2 => some .kA2XX
  | 3 => some .kA3XX
  | 4 => some .kA4XX
  | 5 => some .kA5XX
  | 6 => some .kA6XX
  | 7 => some .kA7XX
  | _ => none

/-! ## The attribute `variants` -/

/-- The matches of `A\d{1}XX`. -/
def findVariants : List Char → List String
  | 'A' :: d :: 'X' :: 'X' :: rest =>
    if d.isDigit then String.ofList ['A', d, 'X', 'X'] :: findVariants rest
    else findVariants (d :: 'X' :: 'X' :: rest)
  | _ :: rest => findVariants rest
  | [] => []

/-- What the loop over the names adds for a range: those after `first` and before `last`. -/
def between (first last : String) : List String :=
  (((GPUVariant.all.map GPUVariant.str).takeWhile (· ≠ last)).dropWhile (· ≠ first)).drop 1

/-- `gpu_list`, with what a dash stands for. -/
def gpuList (variants : String) : List String :=
  let gpuList := findVariants variants.toList
  if '-' ∈ variants.toList then
    match gpuList with
    | [] => []
    | [first, last] => gpuList ++ between first last
    | first :: _ =>
      if first = "A8XX" then gpuList else gpuList ++ "A8XX" :: between first "A8XX"
  else gpuList

/-- The bit that is set for a name. -/
def variantBit (var : String) : ℕ :=
  match GPUVariant.all.find? (·.str == var) with
  | some v => 1 <<< v.index
  | none => 0

/-- `GetGPUVariantsBitField`; 0 stands for all variants. -/
def getGPUVariantsBitField (variants : String) : ℕ :=
  (gpuList variants).foldl (fun asbyte var => asbyte ||| variantBit var) 0

theorem variantBit_lt (var : String) : variantBit var < 2 ^ 7 := by
  unfold variantBit
  split
  · rename_i v _
    rw [Nat.one_shiftLeft]
    exact Nat.pow_lt_pow_right (by decide) v.index_lt
  · decide

theorem getGPUVariantsBitField_lt (variants : String) :
    getGPUVariantsBitField variants < 2 ^ 7 := by
  unfold getGPUVariantsBitField
  induction gpuList variants using List.reverseRecOn with
  | nil => decide
  | append_singleton names name ih =>
    rw [List.foldl_append]
    exact Nat.or_lt_two_pow ih (variantBit_lt name)

/-- A variant for which bits are declared; no bits are all variants. -/
def Declares (bits : ℕ) (v : GPUVariant) : Prop := bits = 0 ∨ bits.testBit v.index = true

instance (bits : ℕ) (v : GPUVariant) : Decidable (Declares bits v) := by
  unfold Declares
  infer_instance

example : getGPUVariantsBitField "A6XX-A7XX" = 0x30 ∧ getGPUVariantsBitField "A7XX-" = 0x60 ∧
    getGPUVariantsBitField "A6XX" = 0x10 ∧ getGPUVariantsBitField "" = 0 := by decide +kernel

end Dive.Adreno
