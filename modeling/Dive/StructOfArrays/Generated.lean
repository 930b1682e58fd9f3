import Dive.Lib.Packing

/-!
# Generated structures of arrays

* `Field`, and a structure as the list of its fields: what the generator reads.
* `Soa`: the members of the generated class. All fields share one allocation; the flags are packed
  bits.
* `ptr`, `get`, `set`, `isFieldSet`, `reserve`, `add`, `clear`, `assign`, `swap`: as in the
  template.
* `Op`, `step`: the operations on the structures of one type. There is no state after an access to
  what is not an element.

The identifiers are 32 bits wide. The build is a release one: assertions do nothing. The code
generated without flags is the same apart from them.
-/

namespace Dive

namespace StructOfArrays

/-- A field: the size of its storage type, its dimensions if it is an array, and the bytes of its
default. -/
structure Field where
  size : ℕ
  dims : List ℕ := []
  dims_pos : ∀ d ∈ dims, 0 < d := by simp
  default : List UInt8 := List.replicate size 0
  length_default : default.length = size := by simp

namespace Field

/-- `k…ArrayCount`, or one. -/
def arrayCount (f : Field) : ℕ := f.dims.prod

/-- `k…Size`. -/
def bytes (f : Field) : ℕ := f.size * f.arrayCount

end Field

/-- A generated structure, by its fields. -/
abbrev Layout : Type := List Field

/-- `k…Offset`. -/
def fieldOffset (L : Layout) (i : ℕ) : ℕ := ((L.map Field.bytes).take i).sum

/-- `kElemSize`. -/
def kElemSize (L : Layout) : ℕ := (L.map Field.bytes).sum

/-- `k…Index`. -/
def fieldIndex (L : Layout) (i : ℕ) : ℕ := ((L.map Field.arrayCount).take i).sum

/-- `kNumFields`. -/
def kNumFields (L : Layout) : ℕ := (L.map Field.arrayCount).sum

/-- `alignof(std::max_align_t)`. -/
def kAlignment : ℕ := 16

/-- A value of `Id::basic_type`. -/
def basic (n : ℕ) : ℕ := n % 2 ^ 32

/-- The class that is generated. A buffer that is not allocated is a null pointer. -/
structure Soa where
  size : ℕ := 0
  cap : ℕ := 0
  allocated : Bool := false
  buffer : Memory := fun _ => 0
  isSetBuffer : List UInt8 := []

/-- A field of a structure, and a position if it is an array. -/
structure Cell (L : Layout) where
  field : Fin L.length
  index : List ℕ
  within : MixedRadix.Within (L.get field).dims index
  deriving DecidableEq

/-! ## Fields -/

section Fields

variable (L : Layout) (s : Soa)

/-- `IsValidId`. -/
def Soa.IsValidId (s : Soa) (id : ℕ) : Prop := id < s.size

/-- `…Ptr(id, …)`. The number of the position is computed in `Id::basic_type`. -/
def ptr (i : Fin L.length) (id : ℕ) (index : List ℕ) : ℕ :=
  fieldOffset L i * s.cap +
    basic (MixedRadix.flattenFrom id (L.get i).dims index) * (L.get i).size

/-- The getter of a field. -/
def get (i : Fin L.length) (id : ℕ) (index : List ℕ) : List UInt8 :=
  Memory.load s.buffer (ptr L s i id index) (L.get i).size

/-- The bit of a field of an element. -/
def bit (i : Fin L.length) (id : ℕ) (index : List ℕ) : ℕ :=
  basic (id * kNumFields L + (fieldIndex L i + MixedRadix.flatten (L.get i).dims index))

/-- `MarkFieldSet`. -/
def markFieldSet (i : Fin L.length) (id : ℕ) (index : List ℕ) : Soa :=
  { s with isSetBuffer := PackedBits.mark s.isSetBuffer (bit L i id index) }

/-- `IsFieldSet`. -/
def isFieldSet (i : Fin L.length) (id : ℕ) (index : List ℕ) : Bool :=
  PackedBits.test s.isSetBuffer (bit L i id index)

/-- `*…Ptr(id, …) = value`. -/
def write (i : Fin L.length) (id : ℕ) (index : List ℕ) (value : List UInt8) : Soa :=
  { s with buffer := Memory.store s.buffer (ptr L s i id index) value }

/-- The setter of a field. -/
def set (i : Fin L.length) (id : ℕ) (index : List ℕ) (value : List UInt8) : Soa :=
  markFieldSet L (write L s i id index value) i id index

end Fields

/-! ## The elements -/

section Elements

variable (L : Layout) (s : Soa)

/-- The next aligned capacity, which is stored in an `Id::basic_type`. -/
def roundUp (newCap : ℕ) : ℕ := basic ((newCap + kAlignment - 1) / kAlignment * kAlignment)

/-- The copy of each array into a new buffer, which is zero before. -/
def copyArrays (cap : ℕ) : Memory :=
  (List.finRange L.length).foldl (fun m (i : Fin L.length) => Memory.store m (fieldOffset L i * cap)
    (Memory.load s.buffer (fieldOffset L i * s.cap) ((L.get i).bytes * s.size))) fun _ => 0

/-- `Reserve`. The copy reads through a null pointer, or writes past the new buffer, if there are
elements and no buffer, or fewer elements fit than there are. -/
def reserve (newCap : ℕ) : Option Soa :=
  if newCap ≤ s.cap then some s
  else if s.size ≠ 0 ∧ (s.allocated = false ∨ roundUp newCap < s.size) then none
  else
    some
      { s with
        cap := roundUp newCap
        allocated := true
        buffer := copyArrays L s (roundUp newCap)
        isSetBuffer := PackedBits.resize s.isSetBuffer (roundUp newCap * kNumFields L / 8 + 1) }

/-- The capacity that `Add` asks for. -/
def grownCap (cap : ℕ) : ℕ := if 0 < cap then basic (cap * 2) else kAlignment

/-- `Add` returns `end()`: the capacity has overflowed. -/
def Full (size cap : ℕ) : Prop := cap ≤ size ∧ grownCap cap ≤ cap

instance (size cap : ℕ) : Decidable (Full size cap) := inferInstanceAs (Decidable (_ ∧ _))

/-- The cells in the order in which `Add` fills them. -/
def cells : List (Cell L) :=
  (List.finRange L.length).flatMap fun i =>
    (MixedRadix.indices (L.get i).dims).attach.map fun index =>
      ⟨i, index.1, MixedRadix.mem_indices.mp index.2⟩

/-- The defaults of a new element. -/
def construct : Option Soa :=
  if s.allocated then
    let t := (cells L).foldl (fun t c =>
      write L t c.field s.size c.index (L.get c.field).default) s
    some { t with size := s.size + 1 }
  else none

/-- `Add`. -/
def add : Option Soa :=
  if Full s.size s.cap then some s
  else
    (if s.cap ≤ s.size then reserve L s (grownCap s.cap) else some s).bind (construct L)

/-- `Clear`. -/
def clear : Soa := { s with size := 0 }

/-- What is left of a structure that was moved from. -/
def movedFrom : Soa := { s with allocated := false, isSetBuffer := [] }

/-- The value of a field: of the array as a whole, if it is one. -/
def fetchField (id : ℕ) (i : Fin L.length) : List UInt8 :=
  if (L.get i).dims = [] then get L s i id []
  else
    Memory.load s.buffer (ptr L s i id ((L.get i).dims.map fun _ => 0)) (L.get i).bytes

/-- Its assignment: by the setter, or by a copy of the array. -/
def assignField (id : ℕ) (i : Fin L.length) (value : List UInt8) : Soa :=
  if (L.get i).dims = [] then set L s i id [] value
  else write L s i id ((L.get i).dims.map fun _ => 0) value

end Elements

/-! ## The structures of one type -/

section Objects

variable (L : Layout) {O : Type} [DecidableEq O]

/-- `assign`: the element `id'` of `o'` to the element `id` of `o`. -/
def assign (σ : O → Soa) (o : O) (id : ℕ) (o' : O) (id' : ℕ) : O → Soa :=
  (List.finRange L.length).foldl (fun σ i =>
    Function.update σ o (assignField L (σ o) id i (fetchField L (σ o') id' i))) σ

/-- The exchange of one field. -/
def swapField (o : O) (id : ℕ) (o' : O) (id' : ℕ) (σ : O → Soa) (i : Fin L.length) :
    O → Soa :=
  let val := fetchField L (σ o) id i
  let σ := Function.update σ o (assignField L (σ o) id i (fetchField L (σ o') id' i))
  Function.update σ o' (assignField L (σ o') id' i val)

/-- `swap`. -/
def swap (σ : O → Soa) (o : O) (id : ℕ) (o' : O) (id' : ℕ) : O → Soa :=
  (List.finRange L.length).foldl (swapField L o id o' id') σ

/-- The operations: `move` is the move assignment of a structure to another one, `reset` that of a
new structure. -/
inductive Op (L : Layout) (O : Type)
  | add (o : O)
  | set (o : O) (id : ℕ) (c : Cell L) (value : List UInt8)
  | clear (o : O)
  | reserve (o : O) (newCap : UInt32)
  | assign (o : O) (id : ℕ) (o' : O) (id' : ℕ)
  | swap (o : O) (id : ℕ) (o' : O) (id' : ℕ)
  | move (o o' : O)
  | reset (o : O)

/-- An element that can be accessed. -/
def Accessible (s : Soa) (id : ℕ) : Prop := s.IsValidId id ∧ s.allocated = true

instance (s : Soa) (id : ℕ) : Decidable (Accessible s id) :=
  inferInstanceAs (Decidable (id < s.size ∧ s.allocated = true))

/-- One call; `none` is an access out of bounds. -/
def step (σ : O → Soa) : Op L O → Option (O → Soa)
  | .add o => (add L (σ o)).map (Function.update σ o)
  | .set o id c value =>
    if Accessible (σ o) id ∧ value.length = (L.get c.field).size then
      some (Function.update σ o (set L (σ o) c.field id c.index value))
    else none
  | .clear o => some (Function.update σ o (clear (σ o)))
  | .reserve o newCap => (reserve L (σ o) newCap.toNat).map (Function.update σ o)
  | .assign o id o' id' =>
    if Accessible (σ o) id ∧ Accessible (σ o') id' then some (assign L σ o id o' id') else none
  | .swap o id o' id' =>
    if Accessible (σ o) id ∧ Accessible (σ o') id' then some (swap L σ o id o' id') else none
  | .move o o' =>
    if o = o' then none
    else some (Function.update (Function.update σ o (σ o')) o' (movedFrom (σ o')))
  | .reset o => some (Function.update σ o {})

end Objects

/-! ## The structure that is generated -/

def Field.scalar (size : ℕ) : Field := { size := size }

def Field.array (size count : ℕ) (h : 0 < count := by decide) : Field where
  size := size
  dims := [count]
  dims_pos := by simpa using h

open Field (scalar array) in
/-- `EventStateInfo`: `Topology` to `Scissor`, the rasterizer, multisampling, depth, blending, the
hardware specific states and the resolves. -/
def eventStateInfo : Layout :=
  [scalar 4, scalar 1, scalar 4, array 24 16, array 16 16,
    scalar 1, scalar 1, scalar 4, scalar 4, scalar 4, scalar 1, scalar 4, scalar 4, scalar 4,
    scalar 4,
    scalar 4, scalar 1, scalar 4, scalar 4, scalar 1,
    scalar 1, scalar 1, scalar 4, scalar 1, scalar 4, scalar 4, scalar 1, scalar 28, scalar 28,
    array 1 8, array 4 8, array 32 8, array 4 4,
    scalar 1, scalar 1, scalar 4, scalar 1, scalar 4, scalar 4, scalar 4, scalar 2, scalar 2,
    scalar 2, scalar 2, scalar 4, scalar 4, scalar 4, scalar 1, scalar 1, array 1 8, array 1 8,
    scalar 1, scalar 1,
    scalar 16, scalar 4, scalar 8, scalar 4, scalar 4]

end StructOfArrays

end Dive
