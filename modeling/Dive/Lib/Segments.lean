import Mathlib.Data.List.SplitBy
import Mathlib.Data.List.MinMax
import Mathlib.Data.List.GetD

/-!
# The runs of a list, walked over by indices

* `runs key l`: the maximal runs of elements with one key.
* `walk key l emit s`: one loop over the indices of `l` that gives the bounds of each run to `emit`;
  **`walk_eq`**: it emits the bounds of `runs key l`.
* **`longest_spec`**: a walk that keeps the bounds of the longest run keeps those of the first one.
* **`getElem?_foldl_modify`**: a fold that updates a cell for each element, cell by cell.
-/

namespace Dive.Segments

variable {α κ σ : Type*} [DecidableEq κ] (key : α → κ)

/-- The maximal runs of elements with one key. -/
def runs (l : List α) : List (List α) :=
  l.splitBy fun a b => key a == key b

@[simp] theorem runs_nil : runs key [] = [] := rfl

theorem flatten_runs (l : List α) : (runs key l).flatten = l := List.flatten_splitBy _ l

theorem nil_notMem_runs (l : List α) : [] ∉ runs key l := List.nil_notMem_splitBy _ l

theorem runs_eq_nil {l : List α} : runs key l = [] ↔ l = [] := List.splitBy_eq_nil

theorem isChain_iff {g : List α} :
    g.IsChain (fun a b => (key a == key b) = true) ↔ ∀ a ∈ g, ∀ b ∈ g, key a = key b := by
  constructor
  · intro h
    have hpair : g.Pairwise fun a b => key a = key b := by
      have : IsTrans α fun a b => key a = key b := ⟨fun _ _ _ h1 h2 => h1.trans h2⟩
      exact List.isChain_iff_pairwise.mp (h.imp fun a b hab => beq_iff_eq.mp hab)
    have : Std.Symm fun a b => key a = key b := ⟨fun _ _ h => h.symm⟩
    intro a ha b hb
    exact List.Pairwise.forall_of_forall (R := fun a b => key a = key b) (fun _ _ => rfl) hpair ha hb
  · intro h
    refine List.Pairwise.isChain (List.pairwise_of_forall_mem_list fun a ha b hb => ?_)
    exact beq_iff_eq.mpr (h a ha b hb)

theorem key_eq_of_mem_runs {l g : List α} (h : g ∈ runs key l) : ∀ a ∈ g, ∀ b ∈ g, key a = key b :=
  (isChain_iff key).mp (List.isChain_of_mem_splitBy h)

theorem runs_concat_of_ne {l : List α} {a : α} (h : ∀ b ∈ l.getLast?, key b ≠ key a) :
    runs key (l ++ [a]) = runs key l ++ [[a]] :=
  List.splitBy_append_cons [] fun b hb => beq_eq_false_iff_ne.mpr (h b hb)

theorem runs_concat_of_eq {l g : List α} {gs : List (List α)} {a : α}
    (hl : runs key l = gs ++ [g]) (h : ∀ b ∈ g, key b = key a) :
    runs key (l ++ [a]) = gs ++ [g ++ [a]] := by
  obtain ⟨hflat, hnil, hone, hchain⟩ := List.splitBy_eq_iff.mp hl
  refine List.splitBy_eq_iff.mpr ⟨by simp [hflat], ?_, ?_, ?_⟩
  · rw [List.mem_append, not_or] at hnil ⊢
    exact ⟨hnil.1, by simp⟩
  · intro m hm
    rcases List.mem_append.mp hm with hm | hm
    · exact hone m (List.mem_append_left _ hm)
    · obtain rfl := List.mem_singleton.mp hm
      refine (isChain_iff key).mpr fun x hx y hy => ?_
      have hkey : ∀ z ∈ g ++ [a], key z = key a := by
        intro z hz
        rcases List.mem_append.mp hz with hz | hz
        · exact h z hz
        · rw [List.mem_singleton.mp hz]
      rw [hkey x hx, hkey y hy]
  · rw [List.isChain_append] at hchain ⊢
    refine ⟨hchain.1, List.isChain_singleton _, fun x hx y hy => ?_⟩
    obtain ⟨hne, hg, hlast⟩ := hchain.2.2 x hx g rfl
    obtain rfl : y = g ++ [a] := by simpa using hy.symm
    refine ⟨hne, List.append_ne_nil_of_left_ne_nil hg _, ?_⟩
    rw [List.head_append_of_ne_nil hg]
    exact hlast

theorem countP_runs_concat (k : κ) (l : List α) (a : α) :
    (runs key (l ++ [a])).countP (fun run => run.all fun b => key b = k) =
      (runs key l).countP (fun run => run.all fun b => key b = k) +
        if key a = k ∧ l.getLast?.map key ≠ some k then 1 else 0 := by
  by_cases hlast : ∃ b ∈ l.getLast?, key b = key a
  · -- the last run goes on
    obtain ⟨b, hb, hkey⟩ := hlast
    rw [if_neg fun h => h.2 (by rw [Option.mem_def.mp hb, Option.map_some, hkey, h.1]),
      Nat.add_zero]
    have hne : runs key l ≠ [] := fun h => by
      rw [(runs_eq_nil key).mp h] at hb
      exact Option.not_mem_none b hb
    obtain ⟨gs, g, hruns⟩ := (List.eq_nil_or_concat' _).resolve_left hne
    have hg : g ∈ runs key l := hruns ▸ List.mem_concat_self
    have hbg : b ∈ g := by
      have hflat := flatten_runs key l
      rw [hruns, List.flatten_concat] at hflat
      have hgne : g ≠ [] := fun h => nil_notMem_runs key l (h ▸ hg)
      rw [← hflat, List.getLast?_append_of_ne_nil _ hgne] at hb
      exact List.mem_of_getLast? hb
    rw [runs_concat_of_eq key hruns fun c hc => (key_eq_of_mem_runs key hg c hc b hbg).trans hkey,
      hruns, List.countP_append, List.countP_append, List.countP_singleton, List.countP_singleton,
      List.all_append]
    have hall : (g.all fun b => key b = k) = decide (key a = k) := by
      rw [Bool.eq_iff_iff, List.all_eq_true, decide_eq_true_eq, ← hkey]
      constructor
      · intro h
        exact decide_eq_true_eq.mp (h b hbg)
      · intro h c hc
        exact decide_eq_true ((key_eq_of_mem_runs key hg c hc b hbg).trans h)
    rw [hall, List.all_cons, List.all_nil, Bool.and_true, Bool.and_self]
  · -- a new run begins
    rw [runs_concat_of_ne key fun b hb h => hlast ⟨b, hb, h⟩, List.countP_append,
      List.countP_singleton, List.all_cons, List.all_nil, Bool.and_true]
    congr 1
    refine if_congr ?_ rfl rfl
    rw [decide_eq_true_eq]
    refine (and_iff_left_of_imp fun hk h => ?_).symm
    obtain ⟨b, hb, hkey⟩ := Option.map_eq_some_iff.mp h
    exact hlast ⟨b, hb, hkey.trans hk.symm⟩

/-! ## The walk -/

section Walk

variable (emit : σ → ℕ → ℕ → σ)

/-- The bounds of consecutive parts, one part after the other from the index `start` on. -/
def emitAll : σ → ℕ → List (List α) → σ
  | s, _, [] => s
  | s, start, g :: gs => emitAll (emit s start (start + g.length)) (start + g.length) gs

/-- One iteration: at an element with another key than that at the start, the run ends. -/
def walkStep (l : List α) (st : σ × ℕ) (i : ℕ) : σ × ℕ :=
  if l[st.2]?.map key ≠ l[i]?.map key then (emit st.1 st.2 i, i) else st

/-- The loop, and the last run behind it. -/
def walk (l : List α) (s : σ) : σ :=
  let st := (List.range l.length).foldl (walkStep key emit l) (s, 0)
  emit st.1 st.2 l.length

theorem emitAll_concat (s : σ) (start : ℕ) (gs : List (List α)) (g : List α) :
    emitAll emit s start (gs ++ [g]) =
      emit (emitAll emit s start gs) (start + gs.flatten.length)
        (start + gs.flatten.length + g.length) := by
  induction gs generalizing s start with
  | nil => simp [emitAll]
  | cons f gs ih =>
    simp only [List.cons_append, emitAll, ih, List.flatten_cons, List.length_append]
    rw [Nat.add_assoc start]

/-- **The loop on a prefix**: the runs before the last one are emitted, the last one is open. -/
theorem walkStep_foldl (l : List α) (s : σ) : ∀ n, n < l.length →
    ∃ gs g, runs key (l.take (n + 1)) = gs ++ [g] ∧
      (List.range (n + 1)).foldl (walkStep key emit l) (s, 0) =
        (emitAll emit s 0 gs, gs.flatten.length)
  | 0, h => by
    obtain ⟨a, l, rfl⟩ := List.exists_cons_of_length_pos h
    exact ⟨[], [a], by simp [runs, List.splitBy, List.splitBy.loop], by simp [walkStep, emitAll]⟩
  | n + 1, h => by
    obtain ⟨gs, g, hruns, hfold⟩ := walkStep_foldl l s n (by omega)
    have htake : l.take (n + 2) = l.take (n + 1) ++ [l[n + 1]] := List.take_succ_eq_append_getElem h
    have hflat : (gs ++ [g]).flatten = l.take (n + 1) := by rw [← hruns, flatten_runs]
    have hflat' : gs.flatten ++ g = l.take (n + 1) := by simpa using hflat
    have hg : g ≠ [] := fun hg => nil_notMem_runs key (l.take (n + 1)) (by rw [hruns]; simp [hg])
    obtain ⟨b, g', rfl⟩ := List.exists_cons_of_ne_nil hg
    have hone := key_eq_of_mem_runs key (l := l.take (n + 1)) (g := b :: g') (by rw [hruns]; simp)
    have hstart : l[gs.flatten.length]? = some b := by
      have hlt : gs.flatten.length < n + 1 := by
        have := congrArg List.length hflat'
        simp only [List.length_append, List.length_cons, List.length_take] at this
        omega
      rw [← List.getElem?_take_of_lt hlt, ← hflat']
      simp
    rw [List.range_succ, List.foldl_append, hfold]
    simp only [List.foldl_cons, List.foldl_nil, walkStep, hstart, Option.map_some,
      List.getElem?_eq_getElem h]
    by_cases hkey : key b = key l[n + 1]
    · refine ⟨gs, b :: g' ++ [l[n + 1]], ?_, by simp [hkey]⟩
      rw [htake]
      exact runs_concat_of_eq key hruns fun c hc => (hone c hc b List.mem_cons_self).trans hkey
    · refine ⟨gs ++ [b :: g'], [l[n + 1]], ?_, ?_⟩
      · rw [htake, runs_concat_of_ne, hruns]
        intro c hc
        have hmem : c ∈ b :: g' := by
          rw [← hflat', List.getLast?_append_of_ne_nil _ (by simp)] at hc
          exact List.mem_of_mem_getLast? hc
        rw [hone c hmem b List.mem_cons_self]
        exact hkey
      · have hlen : gs.flatten.length + (b :: g').length = n + 1 := by
          have := congrArg List.length hflat'
          rw [List.length_append, List.length_take] at this
          omega
        rw [if_pos (by simpa using hkey), emitAll_concat]
        simp only [Nat.zero_add, hlen, List.flatten_append, List.flatten_singleton,
          List.length_append]

/-- **The walk emits the bounds of the runs.** -/
theorem walk_eq {l : List α} (h : l ≠ []) (s : σ) :
    walk key emit l s = emitAll emit s 0 (runs key l) := by
  have hpos := List.length_pos_iff.mpr h
  obtain ⟨gs, g, hruns, hfold⟩ := walkStep_foldl key emit l s (l.length - 1) (by omega)
  have hlen : l.length - 1 + 1 = l.length := by omega
  rw [hlen, List.take_length] at hruns
  rw [hlen] at hfold
  have hsum : gs.flatten.length + g.length = l.length := by
    have := congrArg List.length (flatten_runs key l)
    rw [hruns] at this
    simpa using this
  rw [walk, hfold, hruns, emitAll_concat]
  simp only [Nat.zero_add, hsum]

end Walk

/-! ## The longest run -/

/-- The part of `l` with the given start and size. -/
def slice (l : List α) (start size : ℕ) : List α :=
  (l.drop start).take size

/-- Keeps the bounds `(start, size)` of the longest run. -/
def keepLongest (best : ℕ × ℕ) (start stop : ℕ) : ℕ × ℕ :=
  if stop - start > best.2 then (start, stop - start) else best

/-- **The first longest part is kept.** -/
theorem longest_spec (gs : List (List α)) :
    let best := emitAll keepLongest (0, 0) 0 gs
    best.1 + best.2 ≤ gs.flatten.length ∧
      slice gs.flatten best.1 best.2 = (gs.argmax List.length).getD [] ∧
      best.2 = ((gs.argmax List.length).getD []).length := by
  induction gs using List.reverseRecOn with
  | nil => simp [emitAll, slice]
  | append_singleton gs g ih =>
    obtain ⟨hle, hslice, hlen⟩ := ih
    simp only [emitAll_concat, Nat.zero_add]
    generalize hbest : emitAll keepLongest (0, 0) 0 gs = best at hle hslice hlen
    have hsize : gs.flatten.length + g.length - gs.flatten.length = g.length := by omega
    have hold : slice (gs ++ [g]).flatten best.1 best.2 = slice gs.flatten best.1 best.2 := by
      simp only [slice, List.flatten_append, List.flatten_singleton]
      rw [List.drop_append_of_le_length (by omega), List.take_append_of_le_length]
      rw [List.length_drop]
      omega
    have hnew : slice (gs ++ [g]).flatten gs.flatten.length g.length = g := by
      simp [slice]
    rw [keepLongest, hsize, List.argmax_concat]
    cases hmax : gs.argmax List.length with
    | none =>
      rw [hmax] at hslice hlen
      obtain rfl := List.argmax_eq_none.mp hmax
      by_cases hg : g.length > best.2
      · rw [if_pos hg]
        simpa using hnew
      · rw [if_neg hg]
        have hzero : best.2 = 0 := hlen
        have hgnil : g = [] := List.eq_nil_of_length_eq_zero (by omega)
        subst hgnil
        exact ⟨by simpa using hle, by rw [hold, hslice]; rfl, hlen⟩
    | some t =>
      rw [hmax] at hslice hlen
      simp only [Option.getD_some] at hslice hlen
      simp only [hlen]
      by_cases hg : g.length > t.length
      · rw [if_pos hg, if_pos hg]
        refine ⟨by simp, hnew, rfl⟩
      · rw [if_neg hg, if_neg hg]
        refine ⟨?_, hold.trans hslice, hlen⟩
        simp only [List.flatten_append, List.length_append]
        omega

/-! ## Cells -/

theorem length_foldl_modify {β : Type*} (cell : β → Option ℕ) (f : β → α → α) (bs : List β)
    (l : List α) :
    (bs.foldl (fun l b => match cell b with | none => l | some p => l.modify p (f b)) l).length =
      l.length := by
  induction bs generalizing l with
  | nil => rfl
  | cons b bs ih =>
    rw [List.foldl_cons, ih]
    cases cell b with
    | none => rfl
    | some p => exact List.length_modify _ _ _

/-- **A fold over cells**: each cell sees the elements that are meant for it. -/
theorem getElem?_foldl_modify {β : Type*} (cell : β → Option ℕ) (f : β → α → α) (bs : List β)
    (l : List α) (i : ℕ) :
    (bs.foldl (fun l b => match cell b with | none => l | some p => l.modify p (f b)) l)[i]? =
      l[i]?.map fun a => (bs.filter (cell · == some i)).foldl (fun a b => f b a) a := by
  induction bs generalizing l with
  | nil => simp
  | cons b bs ih =>
    rw [List.foldl_cons, ih]
    cases hcell : cell b with
    | none => simp [hcell]
    | some p =>
      by_cases hp : p = i
      · subst hp
        simp [hcell, Function.comp_def]
      · simp [hcell, hp, List.getElem?_modify_ne _ _ hp]

end Dive.Segments
