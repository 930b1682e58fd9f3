import Dive.Lib.Smear
import Dive.Stl.Replacement

/-!
# What a vector owns

* `Matches`: a cell holds an element of a list.
* `Owns`: the buffer of a vector holds the elements of a list, and its capacity is a power of two.
* `Keeps`: a call changes no buffer but its own; **`Owns.frame`**.
* `Owns.reserve`, `Owns.write`, `Owns.popBack`, `Owns.internalClear`: the functions of one vector.
-/

namespace Dive.StlReplacement

open Blocks

variable {α : Type} (ty : ElementType α)

/-! ## Elements -/

/-- A cell holds an element; an element without a specified value is any object. -/
def ElementType.Matches : Option α → Cell α → Prop
  | some a, c => c = .live a
  | none, _ => ty.implicitLifetime = true

section Elements

variable {ty} {m : Memory (Cell α)} {p q i : ℕ} {cells cells' : List (Cell α)} {c : Cell α}
  {y : Option α}

theorem ElementType.Matches.object (h : ty.Matches y c) : ty.object c = some c := by
  cases c with
  | live a => rfl
  | raw =>
    cases y with
    | some a => cases h
    | none => exact if_pos h

theorem ElementType.Matches.movedFrom (h : ty.Matches y c) :
    ty.Matches (y.map ty.moved) (ty.movedFrom c) := by
  cases y with
  | some a =>
    obtain rfl : c = .live a := h
    rfl
  | none => exact h

theorem load_eq (hp : m.block p = some cells) (hc : cells[i]? = some c)
    (hobject : ty.object c = some c) : load ty m p i = some c := by
  rw [load, Memory.read_eq hp, hc, Option.bind_some, hobject]

theorem exists_destroy (hp : m.block p = some cells) (hc : cells[i]? = some c)
    (hobject : ty.object c = some c) : ∃ m' d, destroy ty m p i = some m' ∧
      m'.block p = some (cells.set i d) ∧ ∀ q, p ≠ q → m'.block q = m.block q := by
  have hi : i < cells.length := (List.getElem?_eq_some_iff.mp hc).1
  obtain ⟨m', hwrite, hm'⟩ := Memory.exists_write hp hi (if ty.implicitLifetime then c else .raw)
  refine ⟨m', _, ?_, hm'⟩
  rw [destroy, load_eq hp hc hobject]
  exact hwrite

theorem exists_moveOut (hp : m.block p = some cells) (hc : cells[i]? = some c)
    (hobject : ty.object c = some c) : ∃ m', moveOut ty m p i = some (c, m') ∧
      m'.block p = some (cells.set i (ty.movedFrom c)) ∧
      ∀ q, p ≠ q → m'.block q = m.block q := by
  have hi : i < cells.length := (List.getElem?_eq_some_iff.mp hc).1
  obtain ⟨m', hwrite, hm'⟩ := Memory.exists_write hp hi (ty.movedFrom c)
  refine ⟨m', ?_, hm'⟩
  rw [moveOut, load_eq hp hc hobject, Option.bind_eq_bind, Option.bind_some, hwrite]
  rfl

theorem object_movedFrom (h : ty.object c = some c) :
    ty.object (ty.movedFrom c) = some (ty.movedFrom c) := by
  cases c with
  | live a => rfl
  | raw => exact h

theorem exists_relocate (hpq : p ≠ q) (hp : m.block p = some cells) (hq : m.block q = some cells')
    (hc : cells[i]? = some c) (hobject : ty.object c = some c) (hi : i < cells'.length) :
    ∃ m' d, relocate ty m p q i = some m' ∧ m'.block p = some (cells.set i d) ∧
      m'.block q = some (cells'.set i c) ∧ ∀ r, p ≠ r → q ≠ r → m'.block r = m.block r := by
  have hlt : i < cells.length := (List.getElem?_eq_some_iff.mp hc).1
  obtain ⟨m₁, hmove, hp₁, hr₁⟩ := exists_moveOut hp hc hobject
  obtain ⟨m₂, hwrite, hq₂, hr₂⟩ := Memory.exists_write ((hr₁ q hpq).trans hq) hi c
  have hp₂ : m₂.block p = some (cells.set i (ty.movedFrom c)) := (hr₂ p hpq.symm).trans hp₁
  obtain ⟨m₃, d, hdestroy, hp₃, hr₃⟩ :=
    exists_destroy hp₂ (List.getElem?_set_self hlt) (object_movedFrom hobject)
  refine ⟨m₃, d, ?_, ?_, ?_, fun r hpr hqr => ?_⟩
  · rw [relocate, hmove]
    show (m₁.write q i c).bind (fun m => destroy ty m p i) = some m₃
    rw [hwrite]
    exact hdestroy
  · rw [hp₃, List.set_set]
  · rw [hr₃ q hpq, hq₂]
  · rw [hr₃ r hpr, hr₂ r hqr, hr₁ r hpr]

end Elements

/-! ## Rounding -/

theorem smeared_shift {n k : ℕ} {x : UInt64} (shift : UInt64) (h : Smear.Smeared n k x.toNat)
    (hshift : shift.toNat = k) (hk : k < 64) : Smear.Smeared n (k + k) (x ||| x >>> shift).toNat := by
  have hor : (x ||| x >>> shift).toNat = x.toNat ||| x.toNat >>> k := by
    rw [UInt64.toNat_or, UInt64.toNat_shiftRight, hshift, Nat.mod_eq_of_lt hk]
  rw [hor]
  exact h.shift

/-- **The rounding gives the least power of two that is large enough.** -/
theorem toNat_roundUp {size : UInt64} (hpos : 0 < size.toNat) (hsize : size.toNat ≤ 2 ^ 63) :
    (roundUp size).toNat = 2 ^ (size.toNat - 1).size := by
  have hsub : (size - 1).toNat = size.toNat - 1 := by
    apply UInt64.toNat_sub_of_le
    rw [UInt64.le_iff_toNat_le]
    exact hpos
  have hone : Smear.Smeared (size.toNat - 1) 1 (size - 1).toNat := hsub ▸ Smear.smeared_one
  have htwo := smeared_shift 1 hone rfl (by decide)
  have hfour := smeared_shift 2 htwo rfl (by decide)
  have height := smeared_shift 4 hfour rfl (by decide)
  have hsixteen := smeared_shift 8 height rfl (by decide)
  have hhalf := smeared_shift 16 hsixteen rfl (by decide)
  have hall := smeared_shift 32 hhalf rfl (by decide)
  have hpow := hall.add_one (by show _ < 2 ^ 64; omega)
  have hle : (size.toNat - 1).size ≤ 63 := Nat.size_le.mpr (by omega)
  have hbound : 2 ^ (size.toNat - 1).size ≤ 2 ^ 63 := Nat.pow_le_pow_right Nat.two_pos hle
  rw [← hpow] at hbound ⊢
  rw [roundUp, UInt64.toNat_add]
  exact Nat.mod_eq_of_lt (Nat.lt_of_le_of_lt hbound (by decide))

/-! ## A vector and its list -/

/-- The first cells hold the elements of a list. -/
def Holds (cells : List (Cell α)) (l : List (Option α)) : Prop :=
  ∀ (i : ℕ) (y : Option α), l[i]? = some y → ∃ c, cells[i]? = some c ∧ ty.Matches y c

/-- **The buffer of a vector holds the elements of a list.** -/
structure Owns (m : Memory (Cell α)) (x : Vector) (l : List (Option α)) : Prop where
  size : x.size.toNat = l.length
  le : x.size.toNat ≤ x.reserved.toNat
  capacity : x.reserved.toNat = 0 ∨ ∃ k, x.reserved.toNat = 2 ^ k
  null : x.buffer = none → x.reserved.toNat = 0
  block : ∀ p, x.buffer = some p →
    ∃ cells, m.block p = some cells ∧ cells.length = x.reserved.toNat ∧ Holds ty cells l

/-- A call changes no buffer but its own, and takes no other one. -/
def Keeps (m : Memory (Cell α)) (x : Vector) (m' : Memory (Cell α)) (x' : Vector) : Prop :=
  ∀ q cells, m.block q = some cells → x.buffer ≠ some q →
    m'.block q = some cells ∧ x'.buffer ≠ some q

section Vectors

variable {ty} {m m' : Memory (Cell α)} {p q i : ℕ} {cells : List (Cell α)} {c : Cell α}
  {y : Option α} {l : List (Option α)} {x x' : Vector}

theorem Holds.set_ge (h : Holds ty cells l) (hi : l.length ≤ i) : Holds ty (cells.set i c) l := by
  intro j y hy
  have hj : j < l.length := (List.getElem?_eq_some_iff.mp hy).1
  rw [List.getElem?_set_ne (by omega)]
  exact h j y hy

theorem Holds.concat (h : Holds ty cells l) (hlt : l.length < cells.length) (hc : ty.Matches y c) :
    Holds ty (cells.set l.length c) (l ++ [y]) := by
  intro j z hz
  rw [List.getElem?_append] at hz
  split_ifs at hz with hj
  · rw [List.getElem?_set_ne (by omega)]
    exact h j z hz
  · obtain ⟨hlen, hget⟩ := List.getElem?_eq_some_iff.mp hz
    rw [List.length_singleton] at hlen
    obtain rfl : l.length = j := by omega
    obtain rfl : y = z := by simpa using hget
    exact ⟨c, List.getElem?_set_self hlt, hc⟩

theorem Holds.take (h : Holds ty cells l) (n : ℕ) : Holds ty cells (l.take n) := by
  intro j y hy
  rw [List.getElem?_take] at hy
  split_ifs at hy
  exact h j y hy

theorem Keeps.refl : Keeps m x m x := fun _ _ hq hne => ⟨hq, hne⟩

theorem Keeps.of_block (hp : x.buffer = some p) (hx : x'.buffer = x.buffer)
    (h : ∀ q, p ≠ q → m'.block q = m.block q) : Keeps m x m' x' := by
  intro q cells hq hne
  rw [hx]
  refine ⟨?_, hne⟩
  rw [h q (by rintro rfl; exact hne hp)]
  exact hq

/-- **A vector with a buffer of its own does not notice the calls on another one.** -/
theorem Owns.frame {z : Vector} {k : List (Option α)} (h : Owns ty m z k) (hkeeps : Keeps m x m' x')
    (hne : ∀ q, z.buffer = some q → x.buffer ≠ some q) :
    Owns ty m' z k ∧ ∀ q, z.buffer = some q → x'.buffer ≠ some q := by
  refine ⟨⟨h.size, h.le, h.capacity, h.null, fun q hq => ?_⟩, fun q hq => ?_⟩
  · obtain ⟨cells, hcells, hlen, hholds⟩ := h.block q hq
    exact ⟨cells, (hkeeps q cells hcells (hne q hq)).1, hlen, hholds⟩
  · obtain ⟨cells, hcells, _⟩ := h.block q hq
    exact (hkeeps q cells hcells (hne q hq)).2

theorem owns_empty : Owns ty m {} [] where
  size := rfl
  le := le_rfl
  capacity := .inl rfl
  null _ := rfl
  block := nofun

theorem Owns.exists_buffer (h : Owns ty m x l) (hlt : 0 < x.reserved.toNat) :
    ∃ p cells, x.buffer = some p ∧ m.block p = some cells ∧ cells.length = x.reserved.toNat ∧
      Holds ty cells l := by
  rcases Option.eq_none_or_eq_some x.buffer with hnone | ⟨p, hp⟩
  · have hzero := h.null hnone
    omega
  · obtain ⟨cells, hcells⟩ := h.block p hp
    exact ⟨p, cells, hp, hcells⟩

/-! ## `reserve` -/

/-- The loop of `reserve` ends, and the bytes of the new buffer do not overflow. -/
def Vector.CanReserve (ty : ElementType α) (x : Vector) (size : UInt64) : Prop :=
  x.reserved < size → x.size.toNat < 2 ^ 32 ∧ size.toNat ≤ 2 ^ 63 ∧
    (roundUp size).toNat * ty.sizeof < 2 ^ 64

instance (size : UInt64) : Decidable (x.CanReserve ty size) := by
  unfold Vector.CanReserve
  infer_instance

/-- The loop of `reserve`, before turn `i`. -/
structure Halfway (ty : ElementType α) (l : List (Option α)) (n p q : ℕ) (cells : List (Cell α))
    (m₀ m : Memory (Cell α)) (i : ℕ) : Prop where
  new : ∃ cells', m.block q = some cells' ∧ cells'.length = n ∧ Holds ty cells' (l.take i)
  old : ∃ cells₀, m.block p = some cells₀ ∧ ∀ j, i ≤ j → cells₀[j]? = cells[j]?
  others : ∀ r, p ≠ r → q ≠ r → m.block r = m₀.block r

theorem Halfway.relocate {n : ℕ} {m₀ : Memory (Cell α)} (hpq : p ≠ q) (hholds : Holds ty cells l)
    (hn : l.length ≤ n) (hi : i < l.length) (h : Halfway ty l n p q cells m₀ m i) :
    ∃ m', relocate ty m p q i = some m' ∧ Halfway ty l n p q cells m₀ m' (i + 1) := by
  obtain ⟨cells', hq, hlen, hnew⟩ := h.new
  obtain ⟨cells₀, hp, hold⟩ := h.old
  obtain ⟨c, hc, hmatches⟩ := hholds i l[i] (List.getElem?_eq_getElem hi)
  obtain ⟨m', d, hrelocate, hp', hq', hr'⟩ := exists_relocate hpq hp hq
    ((hold i le_rfl).trans hc) hmatches.object (by omega)
  refine ⟨m', hrelocate, ⟨_, hq', ?_, ?_⟩, ⟨_, hp', fun j hj => ?_⟩, fun r hpr hqr => ?_⟩
  · rw [List.length_set, hlen]
  · have htake : (l.take i).length = i := by rw [List.length_take]; omega
    have hconcat := hnew.concat (by omega) hmatches
    rwa [htake, List.take_concat_get' l i hi] at hconcat
  · rw [List.getElem?_set_ne (by omega)]
    exact hold j (by omega)
  · rw [hr' r hpr hqr, h.others r hpr hqr]

theorem exists_reallocate {n : ℕ} {size : UInt64} (hpq : p ≠ q) (hp : m.block p = some cells)
    (hholds : Holds ty cells l) (hq : m.block q = some (List.replicate n .raw))
    (hn : l.length ≤ n) (hsize : size.toNat = l.length) (hlt : size.toNat < 2 ^ 32) :
    ∃ m', (forBelow32 size (fun i m => relocate ty m p q i) m).bind (·.free p) = some m' ∧
      (∃ cells', m'.block q = some cells' ∧ cells'.length = n ∧ Holds ty cells' l) ∧
      ∀ r, p ≠ r → q ≠ r → m'.block r = m.block r := by
  have hstart : Halfway ty l n p q cells m m 0 :=
    ⟨⟨_, hq, List.length_replicate, nofun⟩, ⟨cells, hp, fun _ _ => rfl⟩, fun _ _ _ => rfl⟩
  obtain ⟨m₁, hloop, hend⟩ := forBelow32_rule _
    (fun i m' => Halfway ty l n p q cells m m' i) hlt hstart
    fun i m' hi h => h.relocate hpq hholds hn (hsize ▸ hi)
  obtain ⟨cells', hq₁, hlen, hnew⟩ := hend.new
  obtain ⟨cells₀, hp₁, _⟩ := hend.old
  obtain ⟨m₂, hfree, hr₂⟩ := Memory.exists_free hp₁
  refine ⟨m₂, ?_, ⟨cells', (hr₂ q hpq).trans hq₁, hlen, ?_⟩, fun r hpr hqr => ?_⟩
  · rw [hloop]
    exact hfree
  · rwa [hsize, List.take_length] at hnew
  · rw [hr₂ r hpr, hend.others r hpr hqr]

theorem reserve_of_lt {size : UInt64} (hlt : x.reserved < size) : x.reserve ty m size =
    (x.moveElements ty
      (m.alloc (List.replicate (Vector.allocatedCells ty (roundUp size)) .raw)) m.fresh).map
        fun m' => (m', { x with buffer := some m.fresh, reserved := roundUp size }) := by
  rw [Vector.reserve, if_pos hlt, Option.map_eq_bind]
  rfl

theorem owns_reserved (h : Owns ty m x l) {n : UInt64} (hle : x.size.toNat ≤ n.toNat)
    (hpow : ∃ k, n.toNat = 2 ^ k) (hq : ∃ cells, m'.block q = some cells ∧
      cells.length = n.toNat ∧ Holds ty cells l) :
    Owns ty m' { x with buffer := some q, reserved := n } l where
  size := h.size
  le := hle
  capacity := .inr hpow
  null := nofun
  block p hp := by
    cases hp
    exact hq

/-- **`reserve` keeps the elements, and makes room.** -/
theorem Owns.reserve (h : Owns ty m x l) {size : UInt64} (hcan : x.CanReserve ty size) :
    ∃ m' x', x.reserve ty m size = some (m', x') ∧ Owns ty m' x' l ∧ Keeps m x m' x' ∧
      x'.size = x.size ∧ size.toNat ≤ x'.reserved.toNat ∧
      (size ≤ x.reserved → m' = m ∧ x' = x) := by
  by_cases hlt : x.reserved < size
  · obtain ⟨hsize, hle, hbytes⟩ := hcan hlt
    have hgrows : x.reserved.toNat < size.toNat := UInt64.lt_iff_toNat_lt.mp hlt
    have hxle := h.le
    have hpow := toNat_roundUp (by omega) hle
    have hge : size.toNat ≤ (roundUp size).toNat := by
      have hself := Nat.lt_size_self (size.toNat - 1)
      omega
    have hnot : ¬ size ≤ x.reserved := by
      rw [UInt64.le_iff_toNat_le]
      omega
    have hcells : Vector.allocatedCells ty (roundUp size) = (roundUp size).toNat := by
      rw [Vector.allocatedCells, Nat.mod_eq_of_lt hbytes, Nat.mul_div_cancel _ ty.sizeof_pos]
    have hfresh {r : ℕ} {cells : List (Cell α)} (hr : m.block r = some cells) : m.fresh ≠ r := by
      rintro rfl
      rw [Memory.block_fresh] at hr
      cases hr
    rcases hbuffer : x.buffer with _ | p
    · -- There are no elements yet.
      have hzero := h.null hbuffer
      have hlen := h.size
      refine ⟨_, _, ?_, owns_reserved h (q := m.fresh) (by omega) ⟨_, hpow⟩ ⟨_, Memory.block_alloc_fresh,
        (List.length_replicate (a := .raw)), fun i y hy => ?_⟩, fun r cells hr _ => ⟨?_, ?_⟩, rfl,
        hge, fun hle => absurd hle hnot⟩
      · rw [reserve_of_lt hlt, hcells, Vector.moveElements, hbuffer]
        rfl
      · have hi := (List.getElem?_eq_some_iff.mp hy).1
        omega
      · exact Memory.block_alloc_of_some hr
      · exact fun heq => hfresh hr (Option.some.inj heq)
    · obtain ⟨cells, hp, _, hholds⟩ := h.block p hbuffer
      obtain ⟨m', hmove, hnew, hothers⟩ := exists_reallocate (hfresh hp).symm
        (Memory.block_alloc_of_some hp) hholds Memory.block_alloc_fresh
        (n := (roundUp size).toNat) (by rw [← h.size]; omega) h.size hsize
      refine ⟨m', _, ?_, owns_reserved h (by omega) ⟨_, hpow⟩ hnew, fun r cells hr hne => ⟨?_, ?_⟩,
        rfl, hge, fun hle => absurd hle hnot⟩
      · rw [reserve_of_lt hlt, hcells, Vector.moveElements, hbuffer]
        exact congrArg _ hmove
      · rw [hothers r (by rintro rfl; exact hne hbuffer) (hfresh hr)]
        exact Memory.block_alloc_of_some hr
      · exact fun heq => hfresh hr (Option.some.inj heq)
  · have hle : size.toNat ≤ x.reserved.toNat := by
      rw [UInt64.lt_iff_toNat_lt] at hlt
      omega
    refine ⟨m, x, ?_, h, .refl, rfl, hle, fun _ => ⟨rfl, rfl⟩⟩
    rw [Vector.reserve, if_neg hlt]

/-! ## One element -/

theorem Owns.toNat_size_add_one (h : Owns ty m x l) : (x.size + 1).toNat = x.size.toNat + 1 := by
  have hle := h.le
  have hreserved : x.reserved.toNat ≤ 2 ^ 63 := by
    rcases h.capacity with hzero | ⟨k, hk⟩
    · omega
    · have hlt : 2 ^ k < 2 ^ 64 := hk ▸ x.reserved.toNat_lt
      have hk63 : k < 64 := (Nat.pow_lt_pow_iff_right Nat.one_lt_two).mp hlt
      rw [hk]
      exact Nat.pow_le_pow_right Nat.two_pos (by omega)
  rw [UInt64.toNat_add]
  exact Nat.mod_eq_of_lt (by show x.size.toNat + 1 < 2 ^ 64; omega)

/-- **An element is constructed behind the last one.** -/
theorem Owns.write (h : Owns ty m x l) (hlt : x.size.toNat < x.reserved.toNat)
    (hc : ty.Matches y c) : ∃ p m', x.buffer = some p ∧ m.write p x.size.toNat c = some m' ∧
      Owns ty m' { x with size := x.size + 1 } (l ++ [y]) ∧
      Keeps m x m' { x with size := x.size + 1 } ∧
      ∀ i, x.size.toNat < i → m'.read p i = m.read p i := by
  obtain ⟨p, cells, hbuffer, hp, hlen, hholds⟩ := h.exists_buffer (by omega)
  obtain ⟨m', hwrite, hp', hothers⟩ := Memory.exists_write (i := x.size.toNat) hp (by omega) c
  have hsize := h.size
  have hadd := h.toNat_size_add_one
  refine ⟨p, m', hbuffer, hwrite, ⟨?_, ?_, h.capacity, h.null, fun q hq => ?_⟩,
    .of_block hbuffer rfl hothers, fun i hi => ?_⟩
  · rw [hadd, List.length_append, hsize, List.length_singleton]
  · rw [hadd]
    exact hlt
  · obtain rfl : p = q := Option.some.inj (hbuffer.symm.trans hq)
    refine ⟨_, hp', by rw [List.length_set, hlen], ?_⟩
    rw [hsize]
    exact hholds.concat (by omega) hc
  · rw [Memory.read_eq hp', Memory.read_eq hp, List.getElem?_set_ne (by omega)]

theorem Owns.popBack (h : Owns ty m x l) : ∃ m' x', x.popBack ty m = some (m', x') ∧
    Owns ty m' x' l.dropLast ∧ Keeps m x m' x' := by
  have hsize := h.size
  by_cases hpos : 0 < x.size
  · have hposNat : 0 < x.size.toNat := UInt64.lt_iff_toNat_lt.mp hpos
    have hle := h.le
    have hsub : (x.size - 1).toNat = x.size.toNat - 1 := by
      apply UInt64.toNat_sub_of_le
      rw [UInt64.le_iff_toNat_le]
      exact hposNat
    obtain ⟨p, cells, hbuffer, hp, hlen, hholds⟩ := h.exists_buffer (by omega)
    have hlast : x.size.toNat - 1 < l.length := by omega
    obtain ⟨c, hc, hmatches⟩ := hholds _ _ (List.getElem?_eq_getElem hlast)
    obtain ⟨m', d, hdestroy, hp', hothers⟩ := exists_destroy hp hc hmatches.object
    refine ⟨m', { x with size := x.size - 1 }, ?_, ⟨?_, ?_, h.capacity, h.null, fun q hq => ?_⟩,
      .of_block hbuffer rfl hothers⟩
    · rw [Vector.popBack, if_pos hpos, hbuffer, hsub]
      show (destroy ty m p (x.size.toNat - 1)).bind _ = _
      rw [hdestroy]
      rfl
    · rw [hsub, List.length_dropLast, hsize]
    · show (x.size - 1).toNat ≤ x.reserved.toNat
      omega
    · obtain rfl : p = q := Option.some.inj (hbuffer.symm.trans hq)
      refine ⟨_, hp', by rw [List.length_set, hlen], ?_⟩
      rw [List.dropLast_eq_take]
      refine (hholds.take _).set_ge ?_
      rw [List.length_take]
      omega
  · have hzero : l = [] := by
      rw [← List.length_eq_zero_iff, ← hsize]
      rw [UInt64.lt_iff_toNat_lt] at hpos
      exact Nat.eq_zero_of_not_pos hpos
    refine ⟨m, x, ?_, hzero ▸ h, .refl⟩
    rw [Vector.popBack, if_neg hpos]

theorem Owns.internalClear (h : Owns ty m x l) (hlt : x.size.toNat < 2 ^ 32) :
    ∃ m', x.internalClear ty m = some (m', {}) ∧ Keeps m x m' {} := by
  rcases hbuffer : x.buffer with _ | p
  · refine ⟨m, ?_, fun q cells hq _ => ⟨hq, nofun⟩⟩
    rw [Vector.internalClear, hbuffer]
    rfl
  · obtain ⟨cells, hp, hlen, hholds⟩ := h.block p hbuffer
    have hsize := h.size
    obtain ⟨m₁, hloop, ⟨cells₁, hp₁, _⟩, hothers₁⟩ := forBelow32_rule
      (fun i m => destroy ty m p i) (fun i m' => (∃ cells', m'.block p = some cells' ∧
        ∀ j, i ≤ j → cells'[j]? = cells[j]?) ∧ ∀ q, p ≠ q → m'.block q = m.block q) hlt
      ⟨⟨cells, hp, fun _ _ => rfl⟩, fun _ _ => rfl⟩ (by
        rintro i m₀ hi ⟨⟨cells₀, hp₀, hrest⟩, hothers⟩
        obtain ⟨c, hc, hmatches⟩ := hholds i _ (List.getElem?_eq_getElem (hsize ▸ hi))
        obtain ⟨m', d, hdestroy, hp', hothers'⟩ :=
          exists_destroy hp₀ ((hrest i le_rfl).trans hc) hmatches.object
        refine ⟨m', hdestroy, ⟨_, hp', fun j hj => ?_⟩, fun q hq => ?_⟩
        · rw [List.getElem?_set_ne (by omega)]
          exact hrest j (by omega)
        · rw [hothers' q hq, hothers q hq])
    obtain ⟨m₂, hfree, hothers₂⟩ := Memory.exists_free hp₁
    refine ⟨m₂, ?_, fun q cells' hq hne => ⟨?_, nofun⟩⟩
    · rw [Vector.internalClear, hbuffer]
      show (forBelow32 _ _ _).bind (fun m => (Memory.free m p).bind fun m =>
        some (m, ({} : Vector))) = _
      rw [hloop, Option.bind_some, hfree]
      rfl
    · have hpq : p ≠ q := by
        rintro rfl
        exact hne hbuffer
      rw [hothers₂ q hpq, hothers₁ q hpq]
      exact hq

end Vectors

end Dive.StlReplacement
