import Dive.Lib.Blocks
import Mathlib.Logic.Function.Basic

/-!
# The replacement of `std::vector`

* `ElementType`, `Cell`: the element type of a vector, and storage for one element.
* `Vector`: the members of a vector; its functions, over the memory that the buffers are in. What
  the language leaves undefined has no result.
* `Op`, `step`: calls on vectors that have names.
-/

namespace Dive.StlReplacement

open Blocks

/-! ## Elements -/

/-- Storage for one element: raw bytes, or an object with a value. -/
inductive Cell (α : Type)
  | raw
  | live (a : α)
  deriving DecidableEq

/-- `Type`. -/
structure ElementType (α : Type) where
  sizeof : ℕ
  sizeof_pos : 0 < sizeof
  /-- `Type()`. -/
  default : α
  /-- What a move leaves behind. -/
  moved : α → α
  /-- `std::is_trivially_constructible<Type>`. -/
  triviallyConstructible : Bool
  /-- Raw bytes are an object whose value is not specified, as for a type that can be copied
  bytewise; the destructor does nothing. -/
  implicitLifetime : Bool
  implicitLifetime_of : triviallyConstructible = true → implicitLifetime = true

section Elements

variable {α : Type} (ty : ElementType α) (m : Memory (Cell α))

/-- The object in a cell. -/
def ElementType.object (c : Cell α) : Option (Cell α) :=
  match c with
  | .live a => some (.live a)
  | .raw => if ty.implicitLifetime then some .raw else none

def ElementType.movedFrom : Cell α → Cell α
  | .live a => .live (ty.moved a)
  | .raw => .raw

/-- The object at an index of a buffer. -/
def load (p i : ℕ) : Option (Cell α) := (m.read p i).bind ty.object

/-- `buffer[i].~Type()`. -/
def destroy (p i : ℕ) : Option (Memory (Cell α)) := do
  let c ← load ty m p i
  m.write p i (if ty.implicitLifetime then c else .raw)

/-- `Type(std::move(buffer[i]))`: the new object, and the memory with what is left behind. -/
def moveOut (p i : ℕ) : Option (Cell α × Memory (Cell α)) := do
  let c ← load ty m p i
  let m ← m.write p i (ty.movedFrom c)
  some (c, m)

/-- A turn of the loop in `reserve`. -/
def relocate (p q i : ℕ) : Option (Memory (Cell α)) := do
  let (c, m) ← moveOut ty m p i
  let m ← m.write q i c
  destroy ty m p i

/-- A turn of `std::copy`, which assigns. -/
def assign (p q i : ℕ) : Option (Memory (Cell α)) := do
  let c ← load ty m p i
  let _ ← load ty m q i
  m.write q i c

/-- What a reference parameter refers to: an object outside of all vectors, or an element. -/
inductive Ref (α : Type)
  | temporary (a : α)
  | cell (p i : ℕ)

/-- `Type(a)`. -/
def Ref.copy : Ref α → Option (Cell α)
  | .temporary a => some (.live a)
  | .cell p i => load ty m p i

/-- `Type(std::move(a))`. -/
def Ref.move : Ref α → Option (Cell α × Memory (Cell α))
  | .temporary a => some (.live a, m)
  | .cell p i => moveOut ty m p i

/-- An argument that is forwarded: an lvalue or an rvalue. -/
inductive Forwarded (α : Type)
  | lvalue (a : Ref α)
  | rvalue (a : Ref α)

/-- `Type(std::forward<Args>(args)...)`. -/
def Forwarded.construct : Forwarded α → Option (Cell α × Memory (Cell α))
  | .lvalue a => (a.copy ty m).map (·, m)
  | .rvalue a => a.move ty m

end Elements

/-! ## The vector -/

structure Vector where
  buffer : Option ℕ := none
  reserved : UInt64 := 0
  size : UInt64 := 0
  deriving DecidableEq

/-- The rounding in `reserve`. -/
def roundUp (size : UInt64) : UInt64 :=
  let reserved := size - 1
  let reserved := reserved ||| reserved >>> 1
  let reserved := reserved ||| reserved >>> 2
  let reserved := reserved ||| reserved >>> 4
  let reserved := reserved ||| reserved >>> 8
  let reserved := reserved ||| reserved >>> 16
  let reserved := reserved ||| reserved >>> 32
  reserved + 1

namespace Vector

variable {α : Type} (ty : ElementType α) (m : Memory (Cell α)) (v : Vector)

/-- The cells that `operator new[](n * sizeof(Type))` has room for. -/
def allocatedCells (n : UInt64) : ℕ := n.toNat * ty.sizeof % 2 ^ 64 / ty.sizeof

/-- The elements move to the new buffer, and the old one is deleted. -/
def moveElements (newBuffer : ℕ) : Option (Memory (Cell α)) :=
  match v.buffer with
  | none => some m
  | some p => do
    let m ← forBelow32 v.size (fun i m => relocate ty m p newBuffer i) m
    m.free p

/-- The elements move to a longer buffer. -/
def reserve (size : UInt64) : Option (Memory (Cell α) × Vector) :=
  if v.reserved < size then do
    let reserved := roundUp size
    let newBuffer := m.fresh
    let m ← v.moveElements ty (m.alloc (List.replicate (allocatedCells ty reserved) .raw)) newBuffer
    some (m, { v with buffer := some newBuffer, reserved := reserved })
  else some (m, v)

/-- An element is constructed behind the last one, after `reserve`. -/
def append (construct : Memory (Cell α) → Option (Cell α × Memory (Cell α))) :
    Option (Memory (Cell α) × Vector) := do
  let (m, v) ← v.reserve ty m (v.size + 1)
  let p ← v.buffer
  let (c, m) ← construct m
  let m ← m.write p v.size.toNat c
  some (m, { v with size := v.size + 1 })

/-- `push_back(const Type& a)`. -/
def pushBack (a : Ref α) : Option (Memory (Cell α) × Vector) :=
  v.append ty m fun m => (a.copy ty m).map (·, m)

/-- `push_back(Type&& a)`. -/
def pushBackMove (a : Ref α) : Option (Memory (Cell α) × Vector) :=
  v.append ty m fun m => a.move ty m

def emplaceBack (args : Forwarded α) : Option (Memory (Cell α) × Vector) :=
  v.append ty m fun m => args.construct ty m

/-- The last element is destroyed. -/
def popBack : Option (Memory (Cell α) × Vector) :=
  if 0 < v.size then do
    let p ← v.buffer
    let m ← destroy ty m p (v.size - 1).toNat
    some (m, { v with size := v.size - 1 })
  else some (m, v)

/-- The new elements of a longer vector are constructed. -/
def constructNew (size : UInt64) (construct : Memory (Cell α) → Option (Cell α)) :
    Option (Memory (Cell α)) :=
  forRange v.size.toNat size.toNat (fun i m => do
    let p ← v.buffer
    let c ← construct m
    m.write p i c) m

def resize (size : UInt64) : Option (Memory (Cell α) × Vector) := do
  let (m, v) ← v.reserve ty m size
  let m ← if ty.triviallyConstructible then some m
    else v.constructNew m size fun _ => some (.live ty.default)
  some (m, { v with size := size })

/-- `resize(size, a)`. -/
def resizeWith (size : UInt64) (a : Ref α) : Option (Memory (Cell α) × Vector) := do
  let (m, v) ← v.reserve ty m size
  let m ← v.constructNew m size (a.copy ty)
  some (m, { v with size := size })

def internalClear : Option (Memory (Cell α) × Vector) := do
  let m ← match v.buffer with
    | none => some m
    | some p => do
      let m ← forBelow32 v.size (fun i m => destroy ty m p i) m
      m.free p
  some (m, {})

def clear : Option (Memory (Cell α) × Vector) := v.internalClear ty m

/-- `~Vector()`. -/
def destruct : Option (Memory (Cell α)) := (v.internalClear ty m).map Prod.fst

/-- `reserve(a.m_size); m_size = a.m_size; std::copy(…)`. -/
def copyFrom (a : Vector) : Option (Memory (Cell α) × Vector) := do
  let (m, v) ← v.reserve ty m a.size
  let m ← forRange 0 a.size.toNat (fun i m => do
    let p ← a.buffer
    let q ← v.buffer
    assign ty m p q i) m
  some (m, { v with size := a.size })

/-- `Vector(const Vector& a)`; `reserve` does not read `m_size` before there is a buffer. -/
def ofCopy (a : Vector) : Option (Memory (Cell α) × Vector) := copyFrom ty m {} a

/-- `Vector(uint64_t size)`. -/
def ofSize (size : UInt64) : Option (Memory (Cell α) × Vector) := do
  let (m, v) ← reserve ty m {} size
  let m ← v.constructNew m size fun _ => some (.live ty.default)
  some (m, { v with size := size })

/-- `Vector(std::initializer_list<Type> a)`. -/
def ofList (a : List α) : Option (Memory (Cell α) × Vector) := do
  let (m, v) ← reserve ty m {} (UInt64.ofNat a.length)
  let m ← forRange 0 a.length (fun i m => do
    let x ← a[i]?
    let p ← v.buffer
    let _ ← load ty m p i
    m.write p i (.live x)) m
  some (m, { v with size := UInt64.ofNat a.length })

end Vector

/-! ## Calls on vectors with names -/

abbrev VarId := ℕ

/-- The argument of a call: an object outside of all vectors, an element of a vector, or one that is
moved from. -/
inductive Arg (α : Type)
  | value (a : α)
  | element (v : VarId) (i : ℕ)
  | moved (v : VarId) (i : ℕ)

/-- The calls on vectors. -/
inductive Op (α : Type)
  | construct (v : VarId)
  | constructSize (v : VarId) (size : UInt64)
  | constructList (v : VarId) (a : List α)
  | constructCopy (v a : VarId)
  | constructMove (v a : VarId)
  | destruct (v : VarId)
  | assignCopy (v a : VarId)
  | assignMove (v a : VarId)
  | pushBack (v : VarId) (a : Arg α)
  | emplaceBack (v : VarId) (a : Arg α)
  | popBack (v : VarId)
  | resize (v : VarId) (size : UInt64)
  | resizeWith (v : VarId) (size : UInt64) (a : Arg α)
  | reserve (v : VarId) (size : UInt64)
  | clear (v : VarId)

structure State (α : Type) where
  memory : Memory (Cell α) := {}
  vectors : VarId → Option Vector := fun _ => none

section Calls

variable {α : Type} (ty : ElementType α)

namespace State

variable (s : State α)

def put (v : VarId) (r : Memory (Cell α) × Vector) : State α :=
  ⟨r.1, Function.update s.vectors v (some r.2)⟩

/-- A vector that is no more. -/
def drop (v : VarId) : State α := { s with vectors := Function.update s.vectors v none }

variable {s} {v w : VarId} {r : Memory (Cell α) × Vector}

@[simp] theorem memory_put : (s.put v r).memory = r.1 := rfl

@[simp] theorem vectors_put_self : (s.put v r).vectors v = some r.2 := Function.update_self _ _ _

theorem vectors_put_of_ne (h : w ≠ v) : (s.put v r).vectors w = s.vectors w :=
  Function.update_of_ne h _ _

theorem put_put {r' : Memory (Cell α) × Vector} {m : Memory (Cell α)} :
    (⟨m, (s.put v r).vectors⟩ : State α).put v r' = s.put v r' := by
  rw [put, put, Function.update_idem]
  rfl

theorem put_self {m : Memory (Cell α)} {x : Vector} (h : s.vectors v = some x) :
    s.put v (m, x) = ⟨m, s.vectors⟩ := by
  rw [put, ← h, Function.update_eq_self]

@[simp] theorem vectors_drop_self : (s.drop v).vectors v = none := Function.update_self _ _ _

theorem vectors_drop_of_ne (h : w ≠ v) : (s.drop v).vectors w = s.vectors w :=
  Function.update_of_ne h _ _

variable (s)

/-- The object that an argument refers to. -/
def ref : Arg α → Option (Ref α)
  | .value a => some (.temporary a)
  | .element v i | .moved v i => do
    let x ← s.vectors v
    let p ← x.buffer
    if i < x.size.toNat then some (.cell p i) else none

/-- A name that is still free. -/
def unused (v : VarId) : Option Unit := if (s.vectors v).isNone then some () else none

end State

/-- The overload of `push_back` for an argument. -/
def pushBackArg (m : Memory (Cell α)) (x : Vector) (a : Arg α) (r : Ref α) :
    Option (Memory (Cell α) × Vector) :=
  match a with
  | .value _ | .element _ _ => x.pushBack ty m r
  | .moved _ _ => x.pushBackMove ty m r

def forwarded (a : Arg α) (r : Ref α) : Forwarded α :=
  match a with
  | .value _ | .moved _ _ => .rvalue r
  | .element _ _ => .lvalue r

/-- One call; `none` if it is undefined. -/
def step (s : State α) : Op α → Option (State α)
  | .construct v => do
    s.unused v
    some (s.put v (s.memory, {}))
  | .constructSize v size => do
    s.unused v
    s.put v <$> Vector.ofSize ty s.memory size
  | .constructList v a => do
    s.unused v
    s.put v <$> Vector.ofList ty s.memory a
  | .constructCopy v a => do
    s.unused v
    let y ← s.vectors a
    s.put v <$> Vector.ofCopy ty s.memory y
  | .constructMove v a => do
    s.unused v
    let y ← s.vectors a
    some ((s.put v (s.memory, y)).put a (s.memory, {}))
  | .destruct v => do
    let x ← s.vectors v
    let m ← x.destruct ty s.memory
    some ({ s with memory := m }.drop v)
  | .assignCopy v a => do
    let x ← s.vectors v
    let y ← s.vectors a
    if a = v then some s else s.put v <$> x.copyFrom ty s.memory y
  | .assignMove v a => do
    let _ ← s.vectors v
    let y ← s.vectors a
    if a = v then some s else some ((s.put v (s.memory, y)).put a (s.memory, {}))
  | .pushBack v a => do
    let x ← s.vectors v
    let r ← s.ref a
    s.put v <$> pushBackArg ty s.memory x a r
  | .emplaceBack v a => do
    let x ← s.vectors v
    let r ← s.ref a
    s.put v <$> x.emplaceBack ty s.memory (forwarded a r)
  | .popBack v => do
    let x ← s.vectors v
    s.put v <$> x.popBack ty s.memory
  | .resize v size => do
    let x ← s.vectors v
    s.put v <$> x.resize ty s.memory size
  | .resizeWith v size a => do
    let x ← s.vectors v
    let r ← s.ref a
    s.put v <$> x.resizeWith ty s.memory size r
  | .reserve v size => do
    let x ← s.vectors v
    s.put v <$> x.reserve ty s.memory size
  | .clear v => do
    let x ← s.vectors v
    s.put v <$> x.clear ty s.memory

end Calls

end Dive.StlReplacement
