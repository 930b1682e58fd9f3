import Mathlib.Data.List.Basic
import Mathlib.Data.UInt

/-!
# Blocks of memory

* `Memory`: blocks of cells; a block is allocated, and later freed.
* `block_put_self`, `block_put_of_ne`, `block_alloc_of_some`: what an operation changes, and what not.
* **`exists_write`**: a write within a block that is allocated.
* `forRange`, `forBelow32`: counting loops, the second with a counter of 32 bits.
  **`forRange_rule`**, **`forBelow32_rule`**: their invariant rules.
-/

namespace Blocks

/-! ## Blocks -/

/-- The blocks in the order in which they were allocated; one that has been freed is `none`. -/
structure Memory (κ : Type*) where
  blocks : List (Option (List κ)) := []

namespace Memory

variable {κ : Type*} (m : Memory κ)

/-- The cells of the block at `p`, while it is allocated. -/
def block (p : ℕ) : Option (List κ) := m.blocks[p]?.join

/-- The address of the next block. -/
def fresh : ℕ := m.blocks.length

/-- A new block, at `fresh`. -/
def alloc (cells : List κ) : Memory κ := ⟨m.blocks ++ [some cells]⟩

def put (p : ℕ) (cells : List κ) : Memory κ := ⟨m.blocks.set p (some cells)⟩

def free (p : ℕ) : Option (Memory κ) :=
  (m.block p).map fun _ => ⟨m.blocks.set p none⟩

def read (p i : ℕ) : Option κ := (m.block p).bind (·[i]?)

def write (p i : ℕ) (c : κ) : Option (Memory κ) :=
  (m.block p).bind fun cells => if i < cells.length then some (m.put p (cells.set i c)) else none

variable {m} {p q i : ℕ} {cells cells' : List κ} {c : κ}

theorem lt_of_block (h : m.block p = some cells) : p < m.blocks.length := by
  by_contra hge
  rw [block, List.getElem?_eq_none (by omega)] at h
  cases h

theorem block_fresh : m.block m.fresh = none := by
  rw [block, fresh, List.getElem?_eq_none (le_refl _)]
  rfl

theorem block_put_self (h : m.block p = some cells) : (m.put p cells').block p = some cells' := by
  rw [block, put, List.getElem?_set_self (lt_of_block h)]
  rfl

theorem block_put_of_ne (h : p ≠ q) : (m.put p cells).block q = m.block q := by
  rw [block, put, List.getElem?_set_ne h]
  rfl

theorem block_alloc_fresh : (m.alloc cells).block m.fresh = some cells := by
  rw [block, alloc, fresh, List.getElem?_concat_length]
  rfl

theorem block_alloc_of_some (h : m.block p = some cells') :
    (m.alloc cells).block p = some cells' := by
  rw [block, alloc, List.getElem?_append_left (lt_of_block h)]
  exact h

theorem exists_free (h : m.block p = some cells) :
    ∃ m', m.free p = some m' ∧ ∀ q, p ≠ q → m'.block q = m.block q := by
  refine ⟨⟨m.blocks.set p none⟩, by rw [free, h]; rfl, fun q hq => ?_⟩
  rw [block, List.getElem?_set_ne hq]
  rfl

theorem read_eq (h : m.block p = some cells) : m.read p i = cells[i]? := by
  rw [read, h]
  rfl

theorem exists_write (h : m.block p = some cells) (hi : i < cells.length) (c : κ) :
    ∃ m', m.write p i c = some m' ∧ m'.block p = some (cells.set i c) ∧
      ∀ q, p ≠ q → m'.block q = m.block q := by
  refine ⟨m.put p (cells.set i c), ?_, block_put_self h, fun q hq => block_put_of_ne hq⟩
  rw [write, h, Option.bind_some, if_pos hi]

end Memory

/-! ## Loops -/

section Loops

variable {σ : Type*}

/-- `for (uint64_t i = first; i < last; ++i)`. -/
def forRange (first last : ℕ) (body : ℕ → σ → Option σ) (s : σ) : Option σ :=
  (List.range' first (last - first)).foldlM (fun s i => body i s) s

/-- `for (uint32_t i = 0; i < n; ++i)`, with the turns that are left. -/
def loop32 (n : UInt64) (body : ℕ → σ → Option σ) : ℕ → UInt32 → σ → Option σ
  | 0, _, _ => none
  | turns + 1, i, s =>
    if i.toUInt64 < n then (body i.toNat s).bind (loop32 n body turns (i + 1)) else some s

/-- `for (uint32_t i = 0; i < n; ++i)`; a loop with more turns than the counter has values never
ends. -/
def forBelow32 (n : UInt64) (body : ℕ → σ → Option σ) (s : σ) : Option σ :=
  loop32 n body (2 ^ 32) 0 s

variable (body : ℕ → σ → Option σ) {s : σ}

/-- **What each turn keeps.** -/
theorem forRange_rule {first last : ℕ} (P : ℕ → σ → Prop) (hle : first ≤ last) (hstart : P first s)
    (hstep : ∀ i s, first ≤ i → i < last → P i s → ∃ t, body i s = some t ∧ P (i + 1) t) :
    ∃ t, forRange first last body s = some t ∧ P last t := by
  obtain ⟨n, rfl⟩ := Nat.exists_eq_add_of_le hle
  rw [forRange, Nat.add_sub_cancel_left]
  clear hle
  induction n generalizing first s with
  | zero => exact ⟨s, rfl, hstart⟩
  | succ n ih =>
    obtain ⟨t, ht, hP⟩ := hstep first s le_rfl (by omega) hstart
    obtain ⟨u, hu, hlast⟩ := ih hP fun i s hi hlt => hstep i s (by omega) (by omega)
    refine ⟨u, ?_, ?_⟩
    · rw [List.range'_succ, List.foldlM_cons, ht]
      exact hu
    · rwa [show first + (n + 1) = first + 1 + n by omega]

theorem forBelow32_rule {n : UInt64} (P : ℕ → σ → Prop) (hn : n.toNat < 2 ^ 32) (hstart : P 0 s)
    (hstep : ∀ i s, i < n.toNat → P i s → ∃ t, body i s = some t ∧ P (i + 1) t) :
    ∃ t, forBelow32 n body s = some t ∧ P n.toNat t := by
  have hloop (turns : ℕ) (i : UInt32) (s : σ) (hi : i.toNat ≤ n.toNat)
      (hturns : n.toNat < turns + i.toNat) (hP : P i.toNat s) :
      ∃ t, loop32 n body turns i s = some t ∧ P n.toNat t := by
    induction turns generalizing i s with
    | zero => omega
    | succ turns ih =>
      rw [loop32]
      by_cases hlt : i.toNat < n.toNat
      · obtain ⟨t, ht, hnext⟩ := hstep i.toNat s hlt hP
        have hadd : (i + 1).toNat = i.toNat + 1 := by
          rw [UInt32.toNat_add]
          exact Nat.mod_eq_of_lt (by show i.toNat + 1 < 2 ^ 32; omega)
        obtain ⟨u, hu, hlast⟩ := ih (i + 1) t (by omega) (by omega) (hadd ▸ hnext)
        refine ⟨u, ?_, hlast⟩
        rw [if_pos (by rwa [UInt64.lt_iff_toNat_lt, UInt32.toNat_toUInt64]), ht]
        exact hu
      · have heq : i.toNat = n.toNat := by omega
        refine ⟨s, ?_, heq ▸ hP⟩
        rw [if_neg (by rwa [UInt64.lt_iff_toNat_lt, UInt32.toNat_toUInt64])]
  exact hloop (2 ^ 32) 0 s (Nat.zero_le _) (by show n.toNat < 2 ^ 32 + 0; omega) hstart

end Loops

end Blocks
