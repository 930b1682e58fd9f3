import Dive.Stl.Ownership

/-!
# Vectors and lists

* `Lists`, `stepLists`: the same calls on lists. What `resize` adds to a vector of a trivially
  constructible type has no specified value.
* `Allowed`: the calls that end, and read and assign objects only.
* `Refines`: each vector owns the elements of its list, and no two have one buffer.
* **`Refines.call`**, `Refines.forget`, `Refines.construct`, `Refines.move`: what keeps it.
* **`Refines.takeArg`**: the element that is constructed from an argument.
-/

namespace Dive.StlReplacement

open Blocks

variable {α : Type} (ty : ElementType α)

/-! ## Lists -/

/-- The vectors as lists; an element without a specified value is `none`. -/
abbrev Lists (α : Type) := VarId → Option (List (Option α))

namespace Lists

variable (L : Lists α)

/-- The value of an argument. -/
def value : Arg α → Option (Option α)
  | .value a => some (some a)
  | .element v i | .moved v i => (L v).bind (·[i]?)

/-- What a call that moves from its argument leaves. -/
def after : Arg α → Lists α
  | .value _ | .element _ _ => L
  | .moved v i => Function.update L v ((L v).map fun l => l.modify i (Option.map ty.moved))

def unused (v : VarId) : Option Unit := if (L v).isNone then some () else none

end Lists

/-- `resize`, with the value of the elements that are added. -/
def resized (l : List (Option α)) (n : ℕ) (y : Option α) : List (Option α) :=
  l.take n ++ List.replicate (n - l.length) y

/-- What `resize` adds. -/
def ElementType.added : Option α := if ty.triviallyConstructible then none else some ty.default

/-- An element is added to `v`; the argument may be moved from. -/
def appendLists (L : Lists α) (v : VarId) (a : Arg α) : Option (Lists α) := do
  let y ← L.value a
  let l ← L.after ty a v
  some (Function.update (L.after ty a) v (some (l ++ [y])))

/-- The call on lists. -/
def stepLists (L : Lists α) : Op α → Option (Lists α)
  | .construct v => do
    L.unused v
    some (Function.update L v (some []))
  | .constructSize v size => do
    L.unused v
    some (Function.update L v (some (List.replicate size.toNat (some ty.default))))
  | .constructList v a => do
    L.unused v
    if a.length < 2 ^ 64 then some (Function.update L v (some (a.map some))) else none
  | .constructCopy v a => do
    L.unused v
    let l ← L a
    some (Function.update L v (some l))
  | .constructMove v a => do
    L.unused v
    let l ← L a
    some (Function.update (Function.update L v (some l)) a (some []))
  | .destruct v => do
    let _ ← L v
    some (Function.update L v none)
  | .assignCopy v a => do
    let _ ← L v
    let l ← L a
    some (Function.update L v (some l))
  | .assignMove v a => do
    let _ ← L v
    let l ← L a
    if a = v then some L else some (Function.update (Function.update L v (some l)) a (some []))
  | .pushBack v a => appendLists ty L v a
  | .emplaceBack v a => appendLists ty L v a
  | .popBack v => do
    let l ← L v
    some (Function.update L v (some l.dropLast))
  | .resize v size => do
    let l ← L v
    some (Function.update L v (some (resized l size.toNat ty.added)))
  | .resizeWith v size a => do
    let l ← L v
    let y ← L.value a
    some (Function.update L v (some (resized l size.toNat y)))
  | .reserve v _ => do
    let _ ← L v
    some L
  | .clear v => do
    let _ ← L v
    some (Function.update L v (some []))

/-! ## The calls that are allowed -/

/-- The argument is an element of `v`. -/
def Arg.isIn (v : VarId) : Arg α → Bool
  | .value _ => false
  | .element w _ | .moved w _ => w = v

/-- There is an object, whatever the type. -/
def State.isLive (s : State α) (x : Vector) (i : ℕ) : Bool :=
  match x.buffer.bind (s.memory.read · i) with
  | some (.live _) => true
  | _ => false

/-- **The call ends, and reads and assigns objects only**: `reserve` can allocate, an element that is
an argument stays where it is, and a copy is assigned to objects. -/
def Op.Allowed (s : State α) : Op α → Prop
  | .construct _ | .constructMove _ _ | .assignMove _ _ | .popBack _ => True
  | .constructSize _ size => Vector.CanReserve ty {} size
  | .constructList _ a => Vector.CanReserve ty {} (UInt64.ofNat a.length) ∧
      (ty.implicitLifetime = true ∨ a = [])
  | .constructCopy _ a => ∀ y ∈ s.vectors a, Vector.CanReserve ty {} y.size ∧
      (ty.implicitLifetime = true ∨ y.size.toNat = 0)
  | .destruct v | .clear v => ∀ x ∈ s.vectors v, x.size.toNat < 2 ^ 32
  | .assignCopy v a => a ≠ v → ∀ x ∈ s.vectors v, ∀ y ∈ s.vectors a, x.CanReserve ty y.size ∧
      (ty.implicitLifetime = true ∨ ∀ i < y.size.toNat, s.isLive x i = true)
  | .pushBack v a | .emplaceBack v a => ∀ x ∈ s.vectors v, x.CanReserve ty (x.size + 1) ∧
      (a.isIn v = true → x.size + 1 ≤ x.reserved)
  | .resize v size | .reserve v size => ∀ x ∈ s.vectors v, x.CanReserve ty size
  | .resizeWith v size a => ∀ x ∈ s.vectors v, x.CanReserve ty size ∧
      (a.isIn v = true → size ≤ x.reserved)

/-! ## The refinement -/

/-- **The vectors own the elements of the lists**, each in a buffer of its own. -/
structure Refines (s : State α) (L : Lists α) : Prop where
  owns : ∀ v, Option.Rel (Owns ty s.memory) (s.vectors v) (L v)
  separate : ∀ v w x y p, s.vectors v = some x → s.vectors w = some y → x.buffer = some p →
    y.buffer = some p → v = w

section Refinement

variable {ty} {s : State α} {L : Lists α} {v a : VarId} {x y : Vector} {l : List (Option α)}

theorem Refines.exists_list (h : Refines ty s L) (hx : s.vectors v = some x) :
    ∃ l, L v = some l ∧ Owns ty s.memory x l := by
  have hrel := h.owns v
  rw [hx] at hrel
  rcases hl : L v with _ | l
  · rw [hl] at hrel
    cases hrel
  · rw [hl] at hrel
    cases hrel with
    | some howns => exact ⟨l, rfl, howns⟩

theorem Refines.exists_vector (h : Refines ty s L) (hl : L v = some l) :
    ∃ x, s.vectors v = some x ∧ Owns ty s.memory x l := by
  have hrel := h.owns v
  rw [hl] at hrel
  rcases hx : s.vectors v with _ | x
  · rw [hx] at hrel
    cases hrel
  · rw [hx] at hrel
    cases hrel with
    | some howns => exact ⟨x, rfl, howns⟩

theorem Refines.vectors_eq_none (h : Refines ty s L) (hl : L v = none) : s.vectors v = none := by
  rcases hx : s.vectors v with _ | x
  · rfl
  · obtain ⟨l, hsome, _⟩ := h.exists_list hx
    rw [hl] at hsome
    cases hsome

/-- **A call on one vector.** -/
theorem Refines.call (h : Refines ty s L) (hx : s.vectors v = some x) {m : Memory (Cell α)}
    {x' : Vector} (hkeeps : Keeps s.memory x m x') (howns : Owns ty m x' l) :
    Refines ty (s.put v (m, x')) (Function.update L v (some l)) where
  owns w := by
    by_cases hw : w = v
    · subst hw
      rw [State.vectors_put_self, Function.update_self]
      exact .some howns
    · rw [State.vectors_put_of_ne hw, Function.update_of_ne hw]
      rcases hz : s.vectors w with _ | z
      · have hrel := h.owns w
        rw [hz] at hrel
        rcases hl : L w with _ | k
        · exact .none
        · rw [hl] at hrel
          cases hrel
      · obtain ⟨k, hk, hz'⟩ := h.exists_list hz
        rw [hk]
        have hne (q : ℕ) (hq : z.buffer = some q) : x.buffer ≠ some q := fun hxq =>
          hw (h.separate w v z x q hz hx hq hxq)
        exact .some (hz'.frame hkeeps hne).1
  separate w w' z z' p hz hz' hp hp' := by
    have hother {u : VarId} {b : Vector} (hu : u ≠ v) (hb : s.vectors u = some b)
        (hbp : b.buffer = some p) : x'.buffer ≠ some p := by
      obtain ⟨k, _, hk⟩ := h.exists_list hb
      exact (hk.frame hkeeps fun q hq hxq => hu (h.separate u v b x q hb hx hq hxq)).2 p hbp
    by_cases hw : w = v
    · by_cases hw' : w' = v
      · rw [hw, hw']
      · rw [hw, State.vectors_put_self] at hz
        rw [State.vectors_put_of_ne hw'] at hz'
        cases hz
        exact absurd hp (hother hw' hz' hp')
    · rw [State.vectors_put_of_ne hw] at hz
      by_cases hw' : w' = v
      · rw [hw', State.vectors_put_self] at hz'
        cases hz'
        exact absurd hp' (hother hw hz hp)
      · rw [State.vectors_put_of_ne hw'] at hz'
        exact h.separate w w' z z' p hz hz' hp hp'

theorem Refines.forget (h : Refines ty s L) :
    Refines ty (s.drop v) (Function.update L v none) where
  owns w := by
    by_cases hw : w = v
    · subst hw
      rw [State.vectors_drop_self, Function.update_self]
      exact .none
    · rw [State.vectors_drop_of_ne hw, Function.update_of_ne hw]
      exact h.owns w
  separate w w' z z' p hz hz' := by
    have hne {u : VarId} {b : Vector} (hb : (s.drop v).vectors u = some b) :
        s.vectors u = some b := by
      by_cases hu : u = v
      · rw [hu, State.vectors_drop_self] at hb
        cases hb
      · rwa [State.vectors_drop_of_ne hu] at hb
    exact h.separate w w' z z' p (hne hz) (hne hz')

theorem Refines.construct (h : Refines ty s L) :
    Refines ty (s.put v (s.memory, {})) (Function.update L v (some [])) where
  owns w := by
    by_cases hw : w = v
    · subst hw
      rw [State.vectors_put_self, Function.update_self]
      exact .some owns_empty
    · rw [State.vectors_put_of_ne hw, Function.update_of_ne hw]
      exact h.owns w
  separate w w' z z' p hz hz' hp hp' := by
    have hne {u : VarId} {b : Vector} (hb : (s.put v (s.memory, {})).vectors u = some b)
        (hbp : b.buffer = some p) : s.vectors u = some b := by
      by_cases hu : u = v
      · rw [hu, State.vectors_put_self] at hb
        cases hb
        cases hbp
      · rwa [State.vectors_put_of_ne hu] at hb
    exact h.separate w w' z z' p (hne hz hp) (hne hz' hp') hp hp'

theorem Refines.move (h : Refines ty s L) (hav : a ≠ v) (hy : s.vectors a = some y)
    (hl : L a = some l) : Refines ty ((s.put v (s.memory, y)).put a (s.memory, {}))
      (Function.update (Function.update L v (some l)) a (some [])) := by
  have howner {w : VarId} {z : Vector} {p : ℕ}
      (hz : ((s.put v (s.memory, y)).put a (s.memory, {})).vectors w = some z)
      (hp : z.buffer = some p) : s.vectors (if w = v then a else w) = some z := by
    by_cases hwa : w = a
    · rw [hwa, State.vectors_put_self] at hz
      cases hz
      cases hp
    · rw [State.vectors_put_of_ne hwa] at hz
      split_ifs with hwv
      · rw [hwv, State.vectors_put_self] at hz
        rw [hy, hz]
      · rwa [State.vectors_put_of_ne hwv] at hz
  refine ⟨fun w => ?_, fun w w' z z' p hz hz' hp hp' => ?_⟩
  · by_cases hwa : w = a
    · rw [hwa, State.vectors_put_self, Function.update_self]
      exact .some owns_empty
    · rw [State.vectors_put_of_ne hwa, Function.update_of_ne hwa]
      by_cases hwv : w = v
      · rw [hwv, State.vectors_put_self, Function.update_self]
        have hrel := h.owns a
        rwa [hy, hl] at hrel
      · rw [State.vectors_put_of_ne hwv, Function.update_of_ne hwv]
        exact h.owns w
  · have hsame := h.separate _ _ z z' p (howner hz hp) (howner hz' hp') hp hp'
    -- Nobody else had the buffer of `a`.
    have hnot {u : VarId} {b : Vector} (hb : ((s.put v (s.memory, y)).put a
        (s.memory, {})).vectors u = some b) (hbp : b.buffer = some p) : u ≠ a := by
      rintro rfl
      rw [State.vectors_put_self] at hb
      cases hb
      cases hbp
    have hwa := hnot hz hp
    have hwa' := hnot hz' hp'
    split_ifs at hsame with hw hw' hw'
    · rw [hw, hw']
    · exact absurd hsame.symm hwa'
    · exact absurd hsame hwa
    · exact hsame

/-! ## Arguments -/

/-- The element that is constructed from an argument. -/
def takeArg (ty : ElementType α) (a : Arg α) (r : Ref α) (m : Memory (Cell α)) :
    Option (Cell α × Memory (Cell α)) :=
  match a with
  | .value _ | .element _ _ => (r.copy ty m).map (·, m)
  | .moved _ _ => r.move ty m

theorem pushBackArg_eq {m : Memory (Cell α)} {a : Arg α} {r : Ref α} :
    pushBackArg ty m x a r = x.append ty m (takeArg ty a r) := by
  cases a <;> rfl

theorem emplaceBack_eq {a : Arg α} {r : Ref α} (hr : s.ref a = some r) {m : Memory (Cell α)} :
    x.emplaceBack ty m (forwarded a r) = x.append ty m (takeArg ty a r) := by
  cases a with
  | value b =>
    cases hr
    rfl
  | element w i => rfl
  | moved w i => rfl

variable {arg : Arg α} {r : Ref α} {e : Option α}

theorem Refines.exists_ref (h : Refines ty s L) {i : ℕ} (he : (L v).bind (·[i]?) = some e) :
    ∃ x l p cells c, s.vectors v = some x ∧ L v = some l ∧ Owns ty s.memory x l ∧
      x.buffer = some p ∧ s.memory.block p = some cells ∧ cells.length = x.reserved.toNat ∧
      Holds ty cells l ∧ i < x.size.toNat ∧ l[i]? = some e ∧ cells[i]? = some c ∧
      ty.Matches e c := by
  obtain ⟨l, hl, hget⟩ := Option.bind_eq_some_iff.mp he
  obtain ⟨x, hx, howns⟩ := h.exists_vector hl
  have hi : i < l.length := (List.getElem?_eq_some_iff.mp hget).1
  have hsize := howns.size
  have hle := howns.le
  obtain ⟨p, cells, hp, hcells, hlen, hholds⟩ := howns.exists_buffer (by omega)
  obtain ⟨c, hc, hmatches⟩ := hholds i e hget
  exact ⟨x, l, p, cells, c, hx, hl, howns, hp, hcells, hlen, hholds, by omega, hget, hc, hmatches⟩

theorem ref_eq {p i : ℕ} (hx : s.vectors v = some x) (hp : x.buffer = some p)
    (hi : i < x.size.toNat) :
    ((s.vectors v).bind fun x => x.buffer.bind fun p =>
      if i < x.size.toNat then some (Ref.cell (α := α) p i) else none) = some (.cell p i) := by
  rw [hx, Option.bind_some, hp, Option.bind_some, if_pos hi]

theorem Refines.ref (h : Refines ty s L) (he : L.value arg = some e) : ∃ r, s.ref arg = some r := by
  cases arg with
  | value b => exact ⟨_, rfl⟩
  | element w i =>
    obtain ⟨x, _, p, _, _, hx, _, _, hp, _, _, _, hi, _⟩ := h.exists_ref he
    exact ⟨_, ref_eq hx hp hi⟩
  | moved w i =>
    obtain ⟨x, _, p, _, _, hx, _, _, hp, _, _, _, hi, _⟩ := h.exists_ref he
    exact ⟨_, ref_eq hx hp hi⟩

theorem Refines.copy (h : Refines ty s L) (hr : s.ref arg = some r) (he : L.value arg = some e) :
    ∃ c, r.copy ty s.memory = some c ∧ ty.Matches e c := by
  have hcell {w : VarId} {i : ℕ} (he : (L w).bind (·[i]?) = some e)
      (hr : ((s.vectors w).bind fun x => x.buffer.bind fun p =>
        if i < x.size.toNat then some (Ref.cell p i) else none) = some r) :
      ∃ c, r.copy ty s.memory = some c ∧ ty.Matches e c := by
    obtain ⟨x, _, p, _, c, hx, _, _, hp, hcells, _, _, hi, _, hc, hmatches⟩ := h.exists_ref he
    rw [ref_eq hx hp hi] at hr
    cases hr
    exact ⟨c, load_eq hcells hc hmatches.object, hmatches⟩
  cases arg with
  | value b =>
    cases hr
    cases he
    exact ⟨_, rfl, rfl⟩
  | element w i => exact hcell he hr
  | moved w i => exact hcell he hr

theorem Owns.modify {m m' : Memory (Cell α)} {p i : ℕ} {cells : List (Cell α)} {c : Cell α}
    {f : Option α → Option α} (h : Owns ty m x l) (hp : x.buffer = some p)
    (hcells : m.block p = some cells) (he : l[i]? = some e) (hc : ty.Matches (f e) c)
    (hp' : m'.block p = some (cells.set i c)) : Owns ty m' x (l.modify i f) := by
  obtain ⟨cells₀, hcells₀, hlen, hholds⟩ := h.block p hp
  obtain rfl : cells = cells₀ := Option.some.inj (hcells.symm.trans hcells₀)
  refine ⟨by rw [List.length_modify, h.size], h.le, h.capacity, h.null, fun q hq => ?_⟩
  obtain rfl : p = q := Option.some.inj (hp.symm.trans hq)
  refine ⟨_, hp', by rw [List.length_set, hlen], fun j y hy => ?_⟩
  rw [List.getElem?_modify] at hy
  obtain ⟨d, hd, _⟩ := hholds i e he
  have hi : i < cells.length := (List.getElem?_eq_some_iff.mp hd).1
  by_cases hij : i = j
  · subst hij
    rw [he] at hy
    have hfe : some (if i = i then f e else e) = some y := hy
    rw [if_pos rfl] at hfe
    obtain rfl : f e = y := Option.some.inj hfe
    exact ⟨c, List.getElem?_set_self hi, hc⟩
  · rw [List.getElem?_set_ne hij]
    refine hholds j y ?_
    simpa [hij] using hy

/-- **The element that a call constructs from its argument.** -/
theorem Refines.takeArg (h : Refines ty s L) (hr : s.ref arg = some r)
    (he : L.value arg = some e) : ∃ c m', takeArg ty arg r s.memory = some (c, m') ∧
      ty.Matches e c ∧ Refines ty ⟨m', s.vectors⟩ (L.after ty arg) := by
  have hcopy (hsame : L.after ty arg = L) (htake : StlReplacement.takeArg ty arg r s.memory =
      (r.copy ty s.memory).map (·, s.memory)) : ∃ c m', StlReplacement.takeArg ty arg r s.memory =
        some (c, m') ∧ ty.Matches e c ∧ Refines ty ⟨m', s.vectors⟩ (L.after ty arg) := by
    obtain ⟨c, hc, hmatches⟩ := h.copy hr he
    refine ⟨c, s.memory, ?_, hmatches, ?_⟩
    · rw [htake, hc]
      rfl
    · rw [hsame]
      exact h
  cases arg with
  | value b => exact hcopy rfl rfl
  | element w i => exact hcopy rfl rfl
  | moved w i =>
    obtain ⟨x, l, p, cells, c, hx, hl, howns, hp, hcells, _, _, hi, hget, hc, hmatches⟩ :=
      h.exists_ref he
    rw [State.ref] at hr
    cases (ref_eq hx hp hi).symm.trans hr
    obtain ⟨m', hmove, hp', hothers⟩ := exists_moveOut hcells hc hmatches.object
    refine ⟨c, m', hmove, hmatches, ?_⟩
    have hcall := h.call hx (.of_block hp rfl hothers)
      (howns.modify (f := Option.map ty.moved) hp hcells hget hmatches.movedFrom hp')
    rw [State.put_self hx] at hcall
    rw [Lists.after, hl]
    exact hcall

end Refinement

end Dive.StlReplacement
