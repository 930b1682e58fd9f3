import Dive.Lib.Monitor
import Dive.Stl.Lists

/-!
# Vectors refine lists

* **`Refines.append`**, `Refines.resize`, `Refines.resizeWith`, `Refines.copyFrom`: the functions of
  a vector, on lists. `Refines.fill`: the loops in them.
* **`Refines.step`**: every call that is allowed.
* **`refines_of_allowed`**: along every run of allowed calls, the vectors are the lists.
-/

namespace Dive.StlReplacement

open Blocks

variable {α : Type} (ty : ElementType α)

section Refinement

variable {ty} {s : State α} {L : Lists α} {v a : VarId} {x y : Vector} {l : List (Option α)}
  {arg : Arg α} {r : Ref α} {e : Option α}

/-! ## `push_back` and `emplace_back` -/

theorem Refines.reserve (h : Refines ty s L) (hx : s.vectors v = some x) {size : UInt64}
    (hcan : x.CanReserve ty size) : ∃ m x', x.reserve ty s.memory size = some (m, x') ∧
      Refines ty (s.put v (m, x')) L ∧ x'.size = x.size ∧ size.toNat ≤ x'.reserved.toNat ∧
      (size ≤ x.reserved → m = s.memory ∧ x' = x) := by
  obtain ⟨l, hl, howns⟩ := h.exists_list hx
  obtain ⟨m, x', hreserve, howns', hkeeps, hsize, hroom, hsame⟩ := howns.reserve hcan
  have hcall := h.call hx hkeeps howns'
  rw [← hl, Function.update_eq_self] at hcall
  exact ⟨m, x', hreserve, hcall, hsize, hroom, hsame⟩

theorem ref_put {m : Memory (Cell α)} {x' : Vector} (hx : s.vectors v = some x)
    (hr : s.ref arg = some r)
    (h : arg.isIn v = true → x'.buffer = x.buffer ∧ x.size.toNat ≤ x'.size.toNat) :
    (s.put v (m, x')).ref arg = some r := by
  have hcell {w : VarId} {i : ℕ}
      (hw : w = v → x'.buffer = x.buffer ∧ x.size.toNat ≤ x'.size.toNat)
      (hr : ((s.vectors w).bind fun x => x.buffer.bind fun p =>
        if i < x.size.toNat then some (Ref.cell p i) else none) = some r) :
      (((s.put v (m, x')).vectors w).bind fun x => x.buffer.bind fun p =>
        if i < x.size.toNat then some (Ref.cell p i) else none) = some r := by
    by_cases hwv : w = v
    · obtain ⟨hbuffer, hsize⟩ := hw hwv
      rw [hwv, hx, Option.bind_some] at hr
      obtain ⟨p, hp, hr⟩ := Option.bind_eq_some_iff.mp hr
      split_ifs at hr with hi
      rw [hwv, State.vectors_put_self, Option.bind_some, hbuffer, hp, Option.bind_some,
        if_pos (lt_of_lt_of_le hi hsize)]
      exact hr
    · rw [State.vectors_put_of_ne hwv]
      exact hr
  cases arg with
  | value b => exact hr
  | element w i => exact hcell (fun hw => h (decide_eq_true hw)) hr
  | moved w i => exact hcell (fun hw => h (decide_eq_true hw)) hr

theorem append_eq {m m₁ m₂ m₃ : Memory (Cell α)} {x₁ : Vector} {p : ℕ} {c : Cell α}
    {construct : Memory (Cell α) → Option (Cell α × Memory (Cell α))}
    (hreserve : x.reserve ty m (x.size + 1) = some (m₁, x₁)) (hbuffer : x₁.buffer = some p)
    (hconstruct : construct m₁ = some (c, m₂))
    (hwrite : m₂.write p x₁.size.toNat c = some m₃) :
    x.append ty m construct = some (m₃, { x₁ with size := x₁.size + 1 }) := by
  simp [Vector.append, hreserve, hbuffer, hconstruct, hwrite]

/-- **An element is added, also one of the same vector that stays where it is.** -/
theorem Refines.append (h : Refines ty s L) (hx : s.vectors v = some x) (hr : s.ref arg = some r)
    {L' : Lists α} (hL : appendLists ty L v arg = some L') (hcan : x.CanReserve ty (x.size + 1))
    (hin : arg.isIn v = true → x.size + 1 ≤ x.reserved) :
    ∃ m x', x.append ty s.memory (StlReplacement.takeArg ty arg r) = some (m, x') ∧
      Refines ty (s.put v (m, x')) L' := by
  obtain ⟨e, he, hL⟩ := Option.bind_eq_some_iff.mp hL
  obtain ⟨l', hl', hL⟩ := Option.bind_eq_some_iff.mp hL
  cases hL
  obtain ⟨m₁, x₁, hreserve, h₁, hsize, hroom, hsame⟩ := h.reserve hx hcan
  have hr₁ : (s.put v (m₁, x₁)).ref arg = some r := by
    refine ref_put hx hr fun hw => ?_
    rw [(hsame (hin hw)).2]
    exact ⟨rfl, le_rfl⟩
  obtain ⟨c, m₂, htake, hmatches, h₂⟩ := h₁.takeArg hr₁ he
  obtain ⟨l₂, hl₂, howns⟩ := h₂.exists_list (v := v) State.vectors_put_self
  obtain rfl : l' = l₂ := Option.some.inj (hl'.symm.trans hl₂)
  have hlt : x₁.size.toNat < x₁.reserved.toNat := by
    obtain ⟨l, _, hxowns⟩ := h.exists_list hx
    rw [hxowns.toNat_size_add_one] at hroom
    rw [hsize]
    omega
  obtain ⟨p, m₃, hbuffer, hwrite, howns₃, hkeeps, _⟩ := howns.write hlt hmatches
  refine ⟨m₃, _, append_eq hreserve hbuffer htake hwrite, ?_⟩
  have hcall := h₂.call (v := v) State.vectors_put_self hkeeps howns₃
  rwa [State.put_put] at hcall

/-! ## Loops that construct or assign elements -/

theorem Refines.truncate (h : Refines ty s L) (hx : s.vectors v = some x) (hl : L v = some l)
    {n : UInt64} (hn : n.toNat ≤ l.length) : Refines ty (s.put v (s.memory, { x with size := n }))
      (Function.update L v (some (l.take n.toNat))) := by
  obtain ⟨l', hl', howns⟩ := h.exists_list hx
  obtain rfl : l = l' := Option.some.inj (hl.symm.trans hl')
  have hsize := howns.size
  have hle := howns.le
  refine h.call hx (fun q cells hq hne => ⟨hq, hne⟩)
    ⟨?_, ?_, howns.capacity, howns.null, fun p hp => ?_⟩
  · rw [List.length_take]
    exact (min_eq_left hn).symm
  · show n.toNat ≤ x.reserved.toNat
    omega
  · obtain ⟨cells, hcells, hlen, hholds⟩ := howns.block p hp
    exact ⟨cells, hcells, hlen, hholds.take _⟩

/-- **A loop that fills a vector**: in each turn it puts the next element of `k` in its place. -/
theorem Refines.fill (h : Refines ty s L) (hx : s.vectors v = some x) {k : List (Option α)}
    (hl : L v = some (k.take x.size.toNat)) (hroom : k.length ≤ x.reserved.toNat)
    (body : ℕ → Memory (Cell α) → Option (Memory (Cell α)))
    (hbody : ∀ i m (hi : i < k.length), x.size.toNat ≤ i →
      Refines ty (s.put v (m, { x with size := UInt64.ofNat i }))
        (Function.update L v (some (k.take i))) →
      (∀ p j, x.buffer = some p → i ≤ j → m.read p j = s.memory.read p j) →
      ∀ p, x.buffer = some p → ∃ c, ty.Matches k[i] c ∧ body i m = m.write p i c) :
    ∃ m, forRange x.size.toNat k.length body s.memory = some m ∧
      Refines ty (s.put v (m, { x with size := UInt64.ofNat k.length }))
        (Function.update L v (some k)) := by
  obtain ⟨l, hl', howns⟩ := h.exists_list hx
  have hlen : x.size.toNat = (k.take x.size.toNat).length := by
    obtain rfl := Option.some.inj (hl.symm.trans hl')
    exact howns.size
  rw [List.length_take] at hlen
  have hbound := x.reserved.toNat_lt
  have hofNat {i : ℕ} (hi : i ≤ k.length) : (UInt64.ofNat i).toNat = i :=
    UInt64.toNat_ofNat_of_lt' (by show i < 2 ^ 64; omega)
  have hstart : Refines ty (s.put v (s.memory, { x with size := UInt64.ofNat x.size.toNat }))
      (Function.update L v (some (k.take x.size.toNat))) := by
    rw [UInt64.ofNat_toNat, State.put_self hx, ← hl, Function.update_eq_self]
    exact h
  have hstep (i : ℕ) (m : Memory (Cell α)) (hle : x.size.toNat ≤ i) (hi : i < k.length)
      (hturn : Refines ty (s.put v (m, { x with size := UInt64.ofNat i }))
          (Function.update L v (some (k.take i))) ∧
        ∀ p j, x.buffer = some p → i ≤ j → m.read p j = s.memory.read p j) :
      ∃ m', body i m = some m' ∧ Refines ty (s.put v (m', { x with size := UInt64.ofNat (i + 1) }))
          (Function.update L v (some (k.take (i + 1)))) ∧
        ∀ p j, x.buffer = some p → i + 1 ≤ j → m'.read p j = s.memory.read p j := by
    obtain ⟨hm, hrest⟩ := hturn
    obtain ⟨k', hk', howns'⟩ := hm.exists_list (v := v) State.vectors_put_self
    rw [Function.update_self] at hk'
    cases hk'
    have hi' : (UInt64.ofNat i).toNat = i := hofNat hi.le
    have hlt : (UInt64.ofNat i).toNat < x.reserved.toNat := by omega
    obtain ⟨p, cells, hp, _⟩ := howns.exists_buffer (by omega)
    obtain ⟨c, hmatches, hbody⟩ := hbody i m hi hle hm hrest p hp
    obtain ⟨p', m', hp', hwrite, howns'', hkeeps, hothers⟩ := howns'.write hlt hmatches
    obtain rfl : p = p' := Option.some.inj (hp.symm.trans hp')
    have hcall := hm.call (v := v) State.vectors_put_self hkeeps howns''
    rw [Function.update_idem, List.take_concat_get' k i hi] at hcall
    refine ⟨m', ?_, ?_, fun q j hq hj => ?_⟩
    · rw [hbody, ← hi']
      exact hwrite
    · rw [UInt64.ofNat_add]
      rwa [State.put_put] at hcall
    · obtain rfl : p = q := Option.some.inj (hp.symm.trans hq)
      rw [hothers j (by show (UInt64.ofNat i).toNat < j; omega)]
      exact hrest p j hp (by omega)
  obtain ⟨m, hloop, hend, _⟩ := forRange_rule body _ (by omega : x.size.toNat ≤ k.length)
    ⟨hstart, fun _ _ _ _ => rfl⟩ hstep
  refine ⟨m, hloop, ?_⟩
  rwa [List.take_length] at hend

theorem Refines.of_appendLists (h : Refines ty s L) {L' : Lists α}
    (hL : appendLists ty L v arg = some L') :
    ∃ x r, s.vectors v = some x ∧ s.ref arg = some r := by
  obtain ⟨e, he, hL⟩ := Option.bind_eq_some_iff.mp hL
  obtain ⟨l', hl', _⟩ := Option.bind_eq_some_iff.mp hL
  obtain ⟨r, hr⟩ := h.ref he
  have hlist : ∃ l, L v = some l := by
    cases arg with
    | value b => exact ⟨l', hl'⟩
    | element w i => exact ⟨l', hl'⟩
    | moved w i =>
      rw [Lists.after] at hl'
      by_cases hw : v = w
      · rw [hw, Function.update_self] at hl'
        obtain ⟨l, hl, _⟩ := Option.map_eq_some_iff.mp hl'
        exact ⟨l, hw ▸ hl⟩
      · rw [Function.update_of_ne hw] at hl'
        exact ⟨l', hl'⟩
  obtain ⟨l, hl⟩ := hlist
  obtain ⟨x, hx, _⟩ := h.exists_vector hl
  exact ⟨x, r, hx, hr⟩

/-! ## `resize` -/

theorem value_append {k : List (Option α)} (hl : L v = some l) (he : L.value arg = some e) :
    Lists.value (Function.update L v (some (l ++ k))) arg = some e := by
  have hcell {w : VarId} {i : ℕ} (he : (L w).bind (·[i]?) = some e) :
      (Function.update L v (some (l ++ k)) w).bind (·[i]?) = some e := by
    by_cases hw : w = v
    · rw [hw, hl, Option.bind_some] at he
      rw [hw, Function.update_self, Option.bind_some,
        List.getElem?_append_left (List.getElem?_eq_some_iff.mp he).1]
      exact he
    · rw [Function.update_of_ne hw]
      exact he
  cases arg with
  | value b => exact he
  | element w i => exact hcell he
  | moved w i => exact hcell he

theorem resized_of_le {n : ℕ} (h : l.length ≤ n) :
    resized l n e = l ++ List.replicate (n - l.length) e := by
  rw [resized, List.take_of_length_le h]

/-- **The loop over the new elements**, for a shorter vector too. -/
theorem Refines.constructNew (h : Refines ty s L) (hx : s.vectors v = some x) (hl : L v = some l)
    {n : UInt64} (hn : n.toNat ≤ x.reserved.toNat)
    (construct : Memory (Cell α) → Option (Cell α))
    (hconstruct : ∀ i m, l.length ≤ i →
      Refines ty (s.put v (m, { x with size := UInt64.ofNat i }))
        (Function.update L v (some (l ++ List.replicate (i - l.length) e))) → i < n.toNat →
      ∃ c, construct m = some c ∧ ty.Matches e c) :
    ∃ m, x.constructNew s.memory n construct = some m ∧
      Refines ty (s.put v (m, { x with size := n }))
        (Function.update L v (some (resized l n.toNat e))) := by
  obtain ⟨l', hl', howns⟩ := h.exists_list hx
  obtain rfl : l = l' := Option.some.inj (hl.symm.trans hl')
  have hsize := howns.size
  by_cases hle : l.length ≤ n.toNat
  · have hlen : (l ++ List.replicate (n.toNat - l.length) e).length = n.toNat := by
      rw [List.length_append, List.length_replicate]
      omega
    have hfill := h.fill hx (k := l ++ List.replicate (n.toNat - l.length) e)
      (by rw [hsize, List.take_left', hl]; rfl) (by omega)
      (fun i m => x.buffer.bind fun p => (construct m).bind fun c => m.write p i c) ?_
    · rw [hlen, UInt64.ofNat_toNat] at hfill
      rw [resized_of_le hle]
      exact hfill
    · intro i m hi hge hm _ p hp
      have htake : (l ++ List.replicate (n.toNat - l.length) e).take i =
          l ++ List.replicate (i - l.length) e := by
        rw [List.take_append, List.take_of_length_le (by omega), List.take_replicate,
          min_eq_left (by omega)]
      rw [htake] at hm
      obtain ⟨c, hc, hmatches⟩ := hconstruct i m (by omega) hm (by omega)
      refine ⟨c, ?_, ?_⟩
      · rw [List.getElem_append_right (by omega), List.getElem_replicate]
        exact hmatches
      · rw [hp, Option.bind_some, hc]
        rfl
  · refine ⟨s.memory, ?_, ?_⟩
    · rw [Vector.constructNew, forRange, Nat.sub_eq_zero_of_le (by omega)]
      rfl
    · have htruncate := h.truncate hx hl (n := n) (by omega)
      rwa [resized, Nat.sub_eq_zero_of_le (by omega), List.replicate_zero, List.append_nil]

theorem Refines.extend (h : Refines ty s L) (hx : s.vectors v = some x) (hl : L v = some l)
    {n : UInt64} (hn : n.toNat ≤ x.reserved.toNat) (hle : l.length ≤ n.toNat)
    (himplicit : ty.implicitLifetime = true) :
    Refines ty (s.put v (s.memory, { x with size := n }))
      (Function.update L v (some (l ++ List.replicate (n.toNat - l.length) none))) := by
  obtain ⟨l', hl', howns⟩ := h.exists_list hx
  obtain rfl : l = l' := Option.some.inj (hl.symm.trans hl')
  refine h.call hx (fun q cells hq hne => ⟨hq, hne⟩)
    ⟨?_, hn, howns.capacity, howns.null, fun p hp => ?_⟩
  · rw [List.length_append, List.length_replicate]
    show n.toNat = _
    omega
  · obtain ⟨cells, hcells, hlen, hholds⟩ := howns.block p hp
    refine ⟨cells, hcells, hlen, fun i y hy => ?_⟩
    rw [List.getElem?_append] at hy
    split_ifs at hy with hi
    · exact hholds i y hy
    · obtain ⟨hlt, hget⟩ := List.getElem?_eq_some_iff.mp hy
      rw [List.length_replicate] at hlt
      rw [List.getElem_replicate] at hget
      subst hget
      exact ⟨_, List.getElem?_eq_getElem (by omega), himplicit⟩

theorem Refines.resize (h : Refines ty s L) (hx : s.vectors v = some x) (hl : L v = some l)
    {n : UInt64} (hcan : x.CanReserve ty n) : ∃ m x', x.resize ty s.memory n = some (m, x') ∧
      Refines ty (s.put v (m, x')) (Function.update L v (some (resized l n.toNat ty.added))) := by
  obtain ⟨m₁, x₁, hreserve, h₁, hsize, hroom, _⟩ := h.reserve hx hcan
  have hx₁ : (s.put v (m₁, x₁)).vectors v = some x₁ := State.vectors_put_self
  by_cases htrivial : ty.triviallyConstructible = true
  · refine ⟨m₁, { x₁ with size := n }, ?_, ?_⟩
    · rw [Vector.resize, hreserve]
      simp [htrivial]
    · rw [ElementType.added, if_pos htrivial]
      by_cases hle : l.length ≤ n.toNat
      · have hextend := h₁.extend hx₁ hl hroom hle (ty.implicitLifetime_of htrivial)
        rw [resized_of_le hle]
        rwa [State.memory_put, State.put_put] at hextend
      · have htruncate := h₁.truncate hx₁ hl (n := n) (by omega)
        rw [resized, Nat.sub_eq_zero_of_le (by omega), List.replicate_zero, List.append_nil]
        rwa [State.memory_put, State.put_put] at htruncate
  · obtain ⟨m₂, hnew, h₂⟩ := h₁.constructNew hx₁ hl hroom (e := some ty.default)
      (fun _ => some (.live ty.default)) fun _ _ _ _ _ => ⟨_, rfl, rfl⟩
    refine ⟨m₂, { x₁ with size := n }, ?_, ?_⟩
    · rw [Vector.resize, hreserve]
      simp [htrivial, show x₁.constructNew m₁ n _ = some m₂ from hnew]
    · rw [ElementType.added, if_neg htrivial]
      rwa [State.put_put] at h₂

/-- **`resize` with a value**, also one of an element of the same vector that stays where it is. -/
theorem Refines.resizeWith (h : Refines ty s L) (hx : s.vectors v = some x) (hl : L v = some l)
    (hr : s.ref arg = some r) (he : L.value arg = some e) {n : UInt64} (hcan : x.CanReserve ty n)
    (hin : arg.isIn v = true → n ≤ x.reserved) :
    ∃ m x', x.resizeWith ty s.memory n r = some (m, x') ∧
      Refines ty (s.put v (m, x')) (Function.update L v (some (resized l n.toNat e))) := by
  obtain ⟨m₁, x₁, hreserve, h₁, hsize, hroom, hsame⟩ := h.reserve hx hcan
  have hx₁ : (s.put v (m₁, x₁)).vectors v = some x₁ := State.vectors_put_self
  obtain ⟨_, hl', howns⟩ := h₁.exists_list hx₁
  have hlen : x₁.size.toNat = l.length := by
    obtain rfl := Option.some.inj (hl.symm.trans hl')
    exact howns.size
  have hle := howns.le
  have hbound := x₁.reserved.toNat_lt
  obtain ⟨m₂, hnew, h₂⟩ := h₁.constructNew hx₁ hl hroom (e := e) (r.copy ty) (by
    intro i m hi hm hlt
    have hr' : ((s.put v (m₁, x₁)).put v (m, { x₁ with size := UInt64.ofNat i })).ref arg =
        some r := by
      have hput : (s.put v (m₁, x₁)).put v (m, { x₁ with size := UInt64.ofNat i }) =
          s.put v (m, { x₁ with size := UInt64.ofNat i }) := State.put_put
      rw [hput]
      refine ref_put hx hr fun hw => ?_
      obtain ⟨_, rfl⟩ := hsame (hin hw)
      refine ⟨rfl, ?_⟩
      show x₁.size.toNat ≤ (UInt64.ofNat i).toNat
      rw [UInt64.toNat_ofNat_of_lt' (by show i < 2 ^ 64; omega)]
      omega
    exact hm.copy hr' (value_append hl he))
  refine ⟨m₂, { x₁ with size := n }, ?_, ?_⟩
  · rw [Vector.resizeWith, hreserve]
    simp [show x₁.constructNew m₁ n _ = some m₂ from hnew]
  · rwa [State.put_put] at h₂

/-! ## Copies -/

theorem assign_eq {m : Memory (Cell α)} {p q i : ℕ} {c d : Cell α}
    (hc : load ty m p i = some c) (hd : load ty m q i = some d) :
    assign ty m p q i = m.write q i c := by
  rw [assign, hc, Option.bind_eq_bind, Option.bind_some, hd]
  rfl

theorem Refines.load_target (h : Refines ty s L) (hx : s.vectors v = some x) {n : UInt64}
    (hobject : ty.implicitLifetime = true ∨ ∀ i < n.toNat, s.isLive x i = true)
    {m : Memory (Cell α)} {x' : Vector} (h' : Refines ty (s.put v (m, x')) L)
    (hroom : n.toNat ≤ x'.reserved.toNat) (hsame : n ≤ x.reserved → m = s.memory ∧ x' = x)
    {p i : ℕ} (hp : x'.buffer = some p) (hi : i < n.toNat) : ∃ d, load ty m p i = some d := by
  rcases hobject with himplicit | hlive
  · obtain ⟨l, _, howns⟩ := h'.exists_list (v := v) State.vectors_put_self
    obtain ⟨cells, hcells, hlen, _⟩ := howns.block p hp
    have hlen' : cells.length = x'.reserved.toNat := hlen
    have hget : cells[i]? = some cells[i] := List.getElem?_eq_getElem (by omega)
    refine ⟨cells[i], load_eq hcells hget ?_⟩
    cases cells[i] with
    | live b => rfl
    | raw => exact if_pos himplicit
  · -- The vector has not grown: the cells are objects that it has already.
    have hread {j : ℕ} (hj : j < n.toNat) :
        ∃ q b, x.buffer = some q ∧ s.memory.read q j = some (.live b) := by
      have hlive := hlive j hj
      unfold State.isLive at hlive
      split at hlive
      · rename_i b hb
        obtain ⟨q, hq, hb⟩ := Option.bind_eq_some_iff.mp hb
        exact ⟨q, b, hq, hb⟩
      · cases hlive
    have hle : n ≤ x.reserved := by
      rw [UInt64.le_iff_toNat_le]
      by_contra hlt
      obtain ⟨q, b, hq, hb⟩ := hread (j := x.reserved.toNat) (by omega)
      obtain ⟨l, _, howns⟩ := h.exists_list hx
      obtain ⟨cells, hcells, hlen, _⟩ := howns.block q hq
      rw [Memory.read_eq hcells, List.getElem?_eq_none (by omega)] at hb
      cases hb
    obtain ⟨rfl, rfl⟩ := hsame hle
    obtain ⟨q, b, hq, hb⟩ := hread hi
    obtain rfl : p = q := Option.some.inj (hp.symm.trans hq)
    exact ⟨.live b, by rw [load, hb]; rfl⟩

/-- **A copy holds the elements that were copied.** -/
theorem Refines.copyFrom (h : Refines ty s L) (hx : s.vectors v = some x)
    (hy : s.vectors a = some y) (hav : a ≠ v) (hl : L a = some l) (hcan : x.CanReserve ty y.size)
    (hobject : ty.implicitLifetime = true ∨ ∀ i < y.size.toNat, s.isLive x i = true) :
    ∃ m x', x.copyFrom ty s.memory y = some (m, x') ∧
      Refines ty (s.put v (m, x')) (Function.update L v (some l)) := by
  obtain ⟨m₁, x₁, hreserve, h₁, hsize, hroom, hsame⟩ := h.reserve hx hcan
  obtain ⟨lx, hlx, _⟩ := h.exists_list hx
  obtain ⟨l', hl', howns⟩ := h.exists_list hy
  obtain rfl : l = l' := Option.some.inj (hl.symm.trans hl')
  have hlen : y.size.toNat = l.length := howns.size
  have h₂ := h₁.truncate (n := 0) State.vectors_put_self hlx (Nat.zero_le _)
  rw [State.memory_put, State.put_put] at h₂
  obtain ⟨m₂, hloop, h₃⟩ := h₂.fill (v := v) (k := l) State.vectors_put_self
    (Function.update_self _ _ _) (hlen ▸ hroom)
    (fun i m => y.buffer.bind fun p => x₁.buffer.bind fun q => assign ty m p q i) (by
      intro i m hi _ hm hrest q hq
      have hrel : (Function.update (Function.update L v (some (List.take (0 : UInt64).toNat lx))) v
          (some (l.take i)) a).bind (·[i]?) = some l[i] := by
        rw [Function.update_of_ne hav, Function.update_of_ne hav, hl, Option.bind_some,
          List.getElem?_eq_getElem hi]
      obtain ⟨y', _, p, cells, c, hy', _, _, hp, hcells, _, _, _, _, hc, hmatches⟩ :=
        hm.exists_ref hrel
      rw [State.vectors_put_of_ne hav, State.vectors_put_of_ne hav, hy] at hy'
      cases hy'
      obtain ⟨d, hd⟩ := h.load_target hx hobject h₁ hroom hsame hq (hlen ▸ hi)
      refine ⟨c, hmatches, ?_⟩
      have hload : load ty m q i = some d := by
        rw [load, hrest q i hq le_rfl]
        exact hd
      show (y.buffer.bind fun p => x₁.buffer.bind fun q => assign ty m p q i) = _
      rw [hp, Option.bind_some, show x₁.buffer = some q from hq, Option.bind_some]
      exact assign_eq (load_eq hcells hc hmatches.object) hload)
  refine ⟨m₂, { x₁ with size := y.size }, ?_, ?_⟩
  · rw [Vector.copyFrom, hreserve, hlen]
    simp [show forRange 0 l.length _ m₁ = some m₂ from hloop]
  · rw [State.put_put, Function.update_idem, ← hlen, UInt64.ofNat_toNat] at h₃
    exact h₃

/-! ## Constructors -/

theorem Refines.ofCopy (h : Refines ty s L) (hv : s.vectors v = none) (hy : s.vectors a = some y)
    (hl : L a = some l) (hcan : Vector.CanReserve ty {} y.size)
    (hobject : ty.implicitLifetime = true ∨ y.size.toNat = 0) :
    ∃ m x', Vector.ofCopy ty s.memory y = some (m, x') ∧
      Refines ty (s.put v (m, x')) (Function.update L v (some l)) := by
  have hav : a ≠ v := by
    rintro rfl
    rw [hv] at hy
    cases hy
  obtain ⟨m, x', hcopy, hend⟩ := (h.construct (v := v)).copyFrom (y := y) State.vectors_put_self
    ((State.vectors_put_of_ne hav).trans hy) hav
    ((Function.update_of_ne hav _ _).trans hl) hcan
    (hobject.imp_right fun hzero i hi => absurd hi (by omega))
  rw [State.put_put, Function.update_idem] at hend
  exact ⟨m, x', hcopy, hend⟩

theorem Refines.ofSize (h : Refines ty s L) {n : UInt64} (hcan : Vector.CanReserve ty {} n) :
    ∃ m x', Vector.ofSize ty s.memory n = some (m, x') ∧ Refines ty (s.put v (m, x'))
      (Function.update L v (some (List.replicate n.toNat (some ty.default)))) := by
  obtain ⟨m₁, x₁, hreserve, h₁, _, hroom, _⟩ :=
    (h.construct (v := v)).reserve State.vectors_put_self hcan
  obtain ⟨m₂, hnew, h₂⟩ := h₁.constructNew (v := v) State.vectors_put_self
    (Function.update_self _ _ _) hroom (e := some ty.default)
    (fun _ => some (.live ty.default)) fun _ _ _ _ _ => ⟨_, rfl, rfl⟩
  have hmemory : Vector.reserve ty s.memory {} n = some (m₁, x₁) := hreserve
  refine ⟨m₂, { x₁ with size := n }, ?_, ?_⟩
  · rw [Vector.ofSize, hmemory]
    simp [show x₁.constructNew m₁ n _ = some m₂ from hnew]
  · rw [State.put_put, State.put_put, Function.update_idem, resized_of_le (Nat.zero_le _)] at h₂
    exact h₂

theorem Refines.ofList (h : Refines ty s L) {k : List α} (hk : k.length < 2 ^ 64)
    (hcan : Vector.CanReserve ty {} (UInt64.ofNat k.length))
    (hobject : ty.implicitLifetime = true ∨ k = []) :
    ∃ m x', Vector.ofList ty s.memory k = some (m, x') ∧
      Refines ty (s.put v (m, x')) (Function.update L v (some (k.map some))) := by
  have h₀ := h.construct (v := v)
  have hlen : (UInt64.ofNat k.length).toNat = k.length := UInt64.toNat_ofNat_of_lt' hk
  obtain ⟨m₁, x₁, hreserve, h₁, hsize, hroom, hsame⟩ := h₀.reserve State.vectors_put_self hcan
  have hmemory : Vector.reserve ty s.memory {} (UInt64.ofNat k.length) = some (m₁, x₁) := hreserve
  have hzero : x₁.size.toNat = 0 := congrArg UInt64.toNat hsize
  have hmap : (k.map some).length = k.length := List.length_map _
  obtain ⟨m₂, hloop, h₂⟩ := h₁.fill (v := v) (k := k.map some) State.vectors_put_self
    (by
      rw [Function.update_self]
      show some [] = some ((k.map some).take x₁.size.toNat)
      rw [hzero, List.take_zero])
    (by rw [hmap, ← hlen]; exact hroom)
    (fun i m => (k[i]?).bind fun a => x₁.buffer.bind fun p => (load ty m p i).bind fun _ =>
      m.write p i (.live a)) (by
      intro i m hi _ hm hrest p hp
      rw [hmap] at hi
      obtain ⟨d, hd⟩ := h₀.load_target (n := UInt64.ofNat k.length) State.vectors_put_self
        (hobject.imp_right fun hnil j hj => by subst hnil; cases hj) h₁ hroom hsame hp
        (hlen.symm ▸ hi)
      have hload : load ty m p i = some d := by
        rw [load, hrest p i hp le_rfl]
        exact hd
      refine ⟨.live k[i], ?_, ?_⟩
      · rw [List.getElem_map]
        rfl
      · rw [List.getElem?_eq_getElem hi, Option.bind_some, show x₁.buffer = some p from hp,
          Option.bind_some, hload]
        rfl)
  refine ⟨m₂, { x₁ with size := UInt64.ofNat k.length }, ?_, ?_⟩
  · have hloop' : forRange 0 k.length (fun i m => (k[i]?).bind fun a => x₁.buffer.bind fun p =>
        (load ty m p i).bind fun _ => m.write p i (.live a)) m₁ = some m₂ := by
      rw [← hzero, ← hmap]
      exact hloop
    rw [Vector.ofList, hmemory]
    show (forRange 0 k.length _ m₁).bind _ = _
    exact (congrArg (Option.bind · _) hloop').trans rfl
  · rw [State.put_put, State.put_put, Function.update_idem, hmap] at h₂
    exact h₂

/-! ## Every call -/

theorem Refines.unused (h : Refines ty s L) {u : Unit} (hv : L.unused v = some u) :
    s.vectors v = none ∧ s.unused v = some () := by
  rw [Lists.unused, Option.ite_none_right_eq_some, Option.isNone_iff_eq_none] at hv
  have hnone := h.vectors_eq_none hv.1
  refine ⟨hnone, ?_⟩
  rw [State.unused, hnone]
  rfl

theorem Refines.clear (h : Refines ty s L) (hx : s.vectors v = some x)
    (hlt : x.size.toNat < 2 ^ 32) : ∃ m, x.internalClear ty s.memory = some (m, {}) ∧
      Refines ty (s.put v (m, {})) (Function.update L v (some [])) := by
  obtain ⟨l, _, howns⟩ := h.exists_list hx
  obtain ⟨m, hclear, hkeeps⟩ := howns.internalClear hlt
  exact ⟨m, hclear, h.call hx hkeeps owns_empty⟩

/-- **A call on the vectors does what it does on the lists.** -/
theorem Refines.step (h : Refines ty s L) {op : Op α} {L' : Lists α} (hallowed : op.Allowed ty s)
    (hL : stepLists ty L op = some L') : ∃ s', step ty s op = some s' ∧ Refines ty s' L' := by
  cases op with
  | construct v =>
    obtain ⟨u, hu, hL⟩ := Option.bind_eq_some_iff.mp hL
    cases hL
    exact ⟨_, by rw [StlReplacement.step, (h.unused hu).2]; rfl, h.construct⟩
  | constructSize v n =>
    obtain ⟨u, hu, hL⟩ := Option.bind_eq_some_iff.mp hL
    cases hL
    obtain ⟨m, x', hcall, hend⟩ := h.ofSize (v := v) hallowed
    exact ⟨_, by rw [StlReplacement.step, (h.unused hu).2, hcall]; rfl, hend⟩
  | constructList v k =>
    obtain ⟨u, hu, hL⟩ := Option.bind_eq_some_iff.mp hL
    rw [Option.ite_none_right_eq_some] at hL
    obtain ⟨hk, hL⟩ := hL
    cases hL
    obtain ⟨m, x', hcall, hend⟩ := h.ofList (v := v) hk hallowed.1 hallowed.2
    exact ⟨_, by rw [StlReplacement.step, (h.unused hu).2, hcall]; rfl, hend⟩
  | constructCopy v a =>
    obtain ⟨u, hu, hL⟩ := Option.bind_eq_some_iff.mp hL
    obtain ⟨l, hl, hL⟩ := Option.bind_eq_some_iff.mp hL
    cases hL
    obtain ⟨hv, hunused⟩ := h.unused hu
    obtain ⟨y, hy, _⟩ := h.exists_vector hl
    obtain ⟨hcan, hobject⟩ := hallowed y hy
    obtain ⟨m, x', hcall, hend⟩ := h.ofCopy hv hy hl hcan hobject
    refine ⟨_, ?_, hend⟩
    simp [StlReplacement.step, hunused, hy, hcall]
  | constructMove v a =>
    obtain ⟨u, hu, hL⟩ := Option.bind_eq_some_iff.mp hL
    obtain ⟨l, hl, hL⟩ := Option.bind_eq_some_iff.mp hL
    cases hL
    obtain ⟨hv, hunused⟩ := h.unused hu
    obtain ⟨y, hy, _⟩ := h.exists_vector hl
    have hav : a ≠ v := by
      rintro rfl
      rw [hv] at hy
      cases hy
    refine ⟨_, ?_, h.move hav hy hl⟩
    simp [StlReplacement.step, hunused, hy]
  | destruct v =>
    obtain ⟨l, hl, hL⟩ := Option.bind_eq_some_iff.mp hL
    cases hL
    obtain ⟨x, hx, _⟩ := h.exists_vector hl
    obtain ⟨m, hcall, hend⟩ := h.clear hx (hallowed x hx)
    have hforget := hend.forget (v := v)
    rw [Function.update_idem] at hforget
    refine ⟨_, ?_, hforget⟩
    simp [StlReplacement.step, hx, Vector.destruct, hcall, State.drop, State.put]
  | assignCopy v a =>
    obtain ⟨lx, hlx, hL⟩ := Option.bind_eq_some_iff.mp hL
    obtain ⟨l, hl, hL⟩ := Option.bind_eq_some_iff.mp hL
    cases hL
    obtain ⟨x, hx, _⟩ := h.exists_vector hlx
    obtain ⟨y, hy, _⟩ := h.exists_vector hl
    by_cases hav : a = v
    · subst hav
      rw [← hl, Function.update_eq_self]
      refine ⟨s, ?_, h⟩
      simp [StlReplacement.step, hx]
    · obtain ⟨hcan, hobject⟩ := hallowed hav x hx y hy
      obtain ⟨m, x', hcall, hend⟩ := h.copyFrom hx hy hav hl hcan hobject
      refine ⟨_, ?_, hend⟩
      simp [StlReplacement.step, hx, hy, hav, hcall]
  | assignMove v a =>
    obtain ⟨lx, hlx, hL⟩ := Option.bind_eq_some_iff.mp hL
    obtain ⟨l, hl, hL⟩ := Option.bind_eq_some_iff.mp hL
    obtain ⟨x, hx, _⟩ := h.exists_vector hlx
    obtain ⟨y, hy, _⟩ := h.exists_vector hl
    by_cases hav : a = v
    · rw [if_pos hav] at hL
      cases hL
      refine ⟨s, ?_, h⟩
      simp [StlReplacement.step, hx, hav]
    · rw [if_neg hav] at hL
      cases hL
      refine ⟨_, ?_, h.move hav hy hl⟩
      simp [StlReplacement.step, hx, hy, hav]
  | pushBack v arg =>
    obtain ⟨x, r, hx, hr⟩ := h.of_appendLists hL
    obtain ⟨hcan, hin⟩ := hallowed x hx
    obtain ⟨m, x', hcall, hend⟩ := h.append hx hr hL hcan hin
    rw [← pushBackArg_eq] at hcall
    refine ⟨_, ?_, hend⟩
    simp [StlReplacement.step, hx, hr, hcall]
  | emplaceBack v arg =>
    obtain ⟨x, r, hx, hr⟩ := h.of_appendLists hL
    obtain ⟨hcan, hin⟩ := hallowed x hx
    obtain ⟨m, x', hcall, hend⟩ := h.append hx hr hL hcan hin
    rw [← emplaceBack_eq hr] at hcall
    refine ⟨_, ?_, hend⟩
    simp [StlReplacement.step, hx, hr, hcall]
  | popBack v =>
    obtain ⟨l, hl, hL⟩ := Option.bind_eq_some_iff.mp hL
    cases hL
    obtain ⟨x, hx, howns⟩ := h.exists_vector hl
    obtain ⟨m, x', hcall, howns', hkeeps⟩ := howns.popBack
    refine ⟨_, ?_, h.call hx hkeeps howns'⟩
    simp [StlReplacement.step, hx, hcall]
  | resize v n =>
    obtain ⟨l, hl, hL⟩ := Option.bind_eq_some_iff.mp hL
    cases hL
    obtain ⟨x, hx, _⟩ := h.exists_vector hl
    obtain ⟨m, x', hcall, hend⟩ := h.resize hx hl (hallowed x hx)
    refine ⟨_, ?_, hend⟩
    simp [StlReplacement.step, hx, hcall]
  | resizeWith v n arg =>
    obtain ⟨l, hl, hL⟩ := Option.bind_eq_some_iff.mp hL
    obtain ⟨e, he, hL⟩ := Option.bind_eq_some_iff.mp hL
    cases hL
    obtain ⟨x, hx, _⟩ := h.exists_vector hl
    obtain ⟨r, hr⟩ := h.ref he
    obtain ⟨hcan, hin⟩ := hallowed x hx
    obtain ⟨m, x', hcall, hend⟩ := h.resizeWith hx hl hr he hcan hin
    refine ⟨_, ?_, hend⟩
    simp [StlReplacement.step, hx, hr, hcall]
  | reserve v n =>
    obtain ⟨l, hl, hL⟩ := Option.bind_eq_some_iff.mp hL
    cases hL
    obtain ⟨x, hx, _⟩ := h.exists_vector hl
    obtain ⟨m, x', hcall, hend, _⟩ := h.reserve hx (hallowed x hx)
    refine ⟨_, ?_, hend⟩
    simp [StlReplacement.step, hx, hcall]
  | clear v =>
    obtain ⟨l, hl, hL⟩ := Option.bind_eq_some_iff.mp hL
    cases hL
    obtain ⟨x, hx, _⟩ := h.exists_vector hl
    obtain ⟨m, hcall, hend⟩ := h.clear hx (hallowed x hx)
    refine ⟨_, ?_, hend⟩
    simp [StlReplacement.step, hx, Vector.clear, hcall]

/-! ## Runs -/

/-- The cells of the elements. -/
def Vector.contents (m : Memory (Cell α)) (x : Vector) : Option (List (Cell α)) :=
  match x.buffer with
  | none => some []
  | some p => (m.block p).map (·.take x.size.toNat)

/-- **A vector is a list.** -/
structure Vector.IsList (ty : ElementType α) (m : Memory (Cell α)) (x : Vector)
    (l : List (Option α)) : Prop where
  contents : ∃ cells, x.contents m = some cells ∧ List.Forall₂ ty.Matches l cells
  size : x.size.toNat = l.length
  capacity : x.reserved.toNat = 0 ∨ ∃ k, x.reserved.toNat = 2 ^ k
  le : x.size.toNat ≤ x.reserved.toNat

theorem Owns.isList {m : Memory (Cell α)} (h : Owns ty m x l) : x.IsList ty m l where
  contents := by
    have hsize := h.size
    have hle := h.le
    rcases hp : x.buffer with _ | p
    · have hzero := h.null hp
      have hnil : l = [] := List.length_eq_zero_iff.mp (by omega)
      refine ⟨[], ?_, ?_⟩
      · rw [Vector.contents, hp]
      · rw [hnil]
        exact .nil
    · obtain ⟨cells, hcells, hlen, hholds⟩ := h.block p hp
      refine ⟨cells.take x.size.toNat, ?_, ?_⟩
      · simp only [Vector.contents, hp, hcells]
        rfl
      · rw [List.forall₂_iff_get]
        refine ⟨by rw [List.length_take]; omega, fun i hi hi' => ?_⟩
        obtain ⟨c, hc, hmatches⟩ := hholds i l[i] (List.getElem?_eq_getElem hi)
        obtain ⟨_, rfl⟩ := List.getElem?_eq_some_iff.mp hc
        simpa using hmatches
  size := h.size
  capacity := h.capacity
  le := h.le

theorem refines_start : Refines ty {} fun _ => none where
  owns _ := .none
  separate _ _ _ _ _ h := by cases h

instance (s : State α) : ∀ op : Op α, Decidable (op.Allowed ty s)
  | .construct _ | .constructMove _ _ | .assignMove _ _ | .popBack _ => .isTrue trivial
  | .constructSize _ size => inferInstanceAs (Decidable (Vector.CanReserve ty {} size))
  | .constructList _ a => inferInstanceAs
      (Decidable (Vector.CanReserve ty {} (UInt64.ofNat a.length) ∧
        (ty.implicitLifetime = true ∨ a = [])))
  | .constructCopy _ a => inferInstanceAs
      (Decidable (∀ y ∈ s.vectors a, Vector.CanReserve ty {} y.size ∧
        (ty.implicitLifetime = true ∨ y.size.toNat = 0)))
  | .destruct v | .clear v => inferInstanceAs
      (Decidable (∀ x ∈ s.vectors v, x.size.toNat < 2 ^ 32))
  | .assignCopy v a => inferInstanceAs
      (Decidable (a ≠ v → ∀ x ∈ s.vectors v, ∀ y ∈ s.vectors a, x.CanReserve ty y.size ∧
        (ty.implicitLifetime = true ∨ ∀ i < y.size.toNat, s.isLive x i = true)))
  | .pushBack v a | .emplaceBack v a => inferInstanceAs
      (Decidable (∀ x ∈ s.vectors v, x.CanReserve ty (x.size + 1) ∧
        (a.isIn v = true → x.size + 1 ≤ x.reserved)))
  | .resize v size | .reserve v size => inferInstanceAs
      (Decidable (∀ x ∈ s.vectors v, x.CanReserve ty size))
  | .resizeWith v size a => inferInstanceAs
      (Decidable (∀ x ∈ s.vectors v, x.CanReserve ty size ∧
        (a.isIn v = true → size ≤ x.reserved)))

end Refinement

/-- **Along every run of allowed calls, the vectors are the lists.** -/
theorem refines_of_allowed {ops : List (Op α)} {L : Lists α}
    (hlists : Monitor.run (stepLists ty) (fun _ => none) ops = some L)
    (hallowed : Monitor.Meets (step ty) (fun s op => op.Allowed ty s) {} ops) :
    ∃ s, Monitor.run (step ty) {} ops = some s ∧
      ∀ v, Option.Rel (Vector.IsList ty s.memory) (s.vectors v) (L v) := by
  have hstep (L : Lists α) (op : Op α) (L' : Lists α) (s : State α) (h : Refines ty s L)
      (hallowed : op.Allowed ty s) (hL : stepLists ty L op = some L') :
      ∃ s', step ty s op = some s' ∧ Refines ty s' L' := h.step hallowed hL
  obtain ⟨s, hrun, hrefines⟩ :=
    Monitor.run_simulation_of_meets hstep refines_start hallowed hlists
  refine ⟨s, hrun, fun v => ?_⟩
  have howns := hrefines.owns v
  cases hx : s.vectors v with
  | none =>
    rw [hx] at howns
    cases hl : L v with
    | none => exact .none
    | some l =>
      rw [hl] at howns
      cases howns
  | some x =>
    obtain ⟨l, hl, hlist⟩ := hrefines.exists_list hx
    rw [hl]
    exact .some hlist.isList

theorem sizeof_uint32_pos : 0 < 4 := by decide

theorem sizeof_string_pos : 0 < 32 := by decide

/-- `uint32_t`. -/
def uint32 : ElementType ℕ where
  sizeof := 4
  sizeof_pos := sizeof_uint32_pos
  default := 0
  moved a := a
  triviallyConstructible := true
  implicitLifetime := true
  implicitLifetime_of _ := rfl

/-- `std::string`. -/
def string : ElementType (List Char) where
  sizeof := 32
  sizeof_pos := sizeof_string_pos
  default := []
  moved _ := []
  triviallyConstructible := false
  implicitLifetime := false
  implicitLifetime_of h := h

/-- Strings are added, one of them from the same vector, and another vector takes a copy. -/
def stringOps : List (Op (List Char)) :=
  [.construct 0, .pushBack 0 (.value ['a']), .reserve 0 3, .pushBack 0 (.element 0 0),
    .resize 0 4, .popBack 0, .construct 1, .resizeWith 1 3 (.moved 0 0), .assignCopy 1 0,
    .emplaceBack 1 (.moved 0 1), .constructMove 2 1, .clear 0]

theorem stringOps_lists : ∃ L s, Monitor.run (stepLists string) (fun _ => none) stringOps = some L ∧
    L 2 = some [some ['a'], some ['a'], some [], some ['a']] ∧
    Monitor.run (step string) {} stringOps = some s ∧
      ∀ v, Option.Rel (Vector.IsList string s.memory) (s.vectors v) (L v) := by
  obtain ⟨L, hlists⟩ : ∃ L, Monitor.run (stepLists string) (fun _ => none) stringOps = some L :=
    Option.isSome_iff_exists.mp (by decide +kernel)
  have hlast : (Monitor.run (stepLists string) (fun _ => none) stringOps).bind (· 2) =
      some [some ['a'], some ['a'], some [], some ['a']] := by decide +kernel
  rw [hlists] at hlast
  obtain ⟨s, hrun, hrefines⟩ := refines_of_allowed string hlists (by decide +kernel)
  exact ⟨L, s, hlists, hlast, hrun, hrefines⟩

/-- `resize` leaves numbers as they are in memory, an element of a vector that grows is read after
its buffer has been freed, and a copy of strings is assigned to raw memory. -/
theorem vectors_not_lists :
    (Monitor.run (step uint32) {} [.construct 0, .resize 0 1]).bind (fun s =>
      (s.vectors 0).bind (·.contents s.memory)) = some [.raw] ∧
    (Monitor.run (step uint32) {} [.construct 0, .pushBack 0 (.value 7),
      .pushBack 0 (.element 0 0)]).isNone = true ∧
    (Monitor.run (step string) {} [.construct 0, .pushBack 0 (.value ['a']),
      .constructCopy 1 0]).isNone = true := by
  refine ⟨?_, ?_, ?_⟩
  · decide +kernel
  · decide +kernel
  · decide +kernel

end Dive.StlReplacement
