import Dive.Ui.CommandBufferView
import Mathlib.Logic.Relation

/-!
# A selection in the command-buffer view

* `Stretch`: the rows from the start to the end of a selection; `Highlighted`.
* **`marks_of_stretch`**: the rows that the recursion marks.
-/

namespace Dive.CommandBufferModel

open Tours
open Relation (ReflTransGen TransGen)

/-! ## The rows of a selection -/

/-- `m` goes from the start to the end of a selection. -/
structure Stretch (startNode endNode : ℕ) (rows m : List Row) : Prop where
  within : m <:+: rows
  start : ∃ r ∈ m.head?, r.isStart startNode = true
  stop : ∃ r ∈ m.getLast?, r.isEnd endNode = true

def FieldOf (t : SelectionTopology) (node child : ℕ) : Prop :=
  ∃ cs, t.children node = some cs ∧ child ∈ cs

/-- The nodes from the start to the end, with the fields of the end unless it calls an indirect
buffer. -/
def Highlighted (h : PacketHierarchy) (t : SelectionTopology) (startNode endNode : ℕ)
    (rows : List Row) (node : ℕ) : Prop :=
  ∃ m, Stretch startNode endNode rows m ∧
    ((∃ r ∈ m, r.node = node) ∨ callsIb h endNode = false ∧ TransGen (FieldOf t) endNode node)

section Marks

variable {h : PacketHierarchy} {t : SelectionTopology} {startNode endNode root : ℕ}
  {ev before inside after : List (TourEvent Row)} {m : List Row} {er : Row} {f : Bool}

theorem isStart_mem_marks {r : Row} (hr : r ∈ entered ev) (hstart : r.isStart startNode = true)
    (f : Bool) : r ∈ marks h startNode endNode f ev := by
  induction ev generalizing f with
  | nil => cases hr
  | cons e ev ih =>
    cases e with
    | leave b => exact ih hr _
    | enter b =>
      rw [marks, List.mem_append]
      rcases List.mem_cons.mp hr with rfl | hr
      · left
        rw [hstart, Bool.or_true, if_pos rfl]
        exact List.mem_singleton_self r
      · exact .inr (ih hr _)

theorem node_ne_of_nodup {as bs : List Row} {a : Row}
    (hnodup : ((as ++ a :: bs).map Row.node).Nodup) : ∀ r ∈ as ++ bs, r.node ≠ a.node := by
  rw [List.map_append, List.map_cons, List.nodup_middle, ← List.map_append] at hnodup
  intro r hr heq
  exact (List.nodup_cons.mp hnodup).1 (heq ▸ List.mem_map_of_mem hr)

theorem isStart_of_ne {r s : Row} (hs : s.isStart startNode = true) (hne : r.node ≠ s.node) :
    r.isStart startNode = false := by
  rw [Row.isStart, Bool.and_eq_true, decide_eq_true_eq] at hs
  rw [Row.isStart, Bool.and_eq_false_iff, decide_eq_false_iff_not, ← hs.2]
  exact .inr hne

theorem node_of_isEnd {r : Row} (hr : r.isEnd endNode = true) : r.node = endNode := by
  rw [Row.isEnd, Bool.and_eq_true, decide_eq_true_eq] at hr
  exact hr.2

/-- The rows of a tour, before, below and after one of them. -/
structure Around (ev before inside after : List (TourEvent Row)) (er : Row) : Prop where
  eq : ev = before ++ .enter er :: (inside ++ .leave er :: after)
  nodup : ((entered ev).map Row.node).Nodup
  left_nodup : ((left ev).map Row.node).Nodup

namespace Around

variable (h₀ : Around ev before inside after er)
include h₀

theorem entered_eq : entered ev = entered before ++ er :: (entered inside ++ entered after) := by
  rw [h₀.eq]
  simp

theorem mem : er ∈ entered ev := by
  rw [h₀.entered_eq]
  simp

theorem node_ne : ∀ r ∈ entered before ++ (entered inside ++ entered after),
    r.node ≠ er.node := by
  have hnodup := h₀.nodup
  rw [h₀.entered_eq] at hnodup
  exact node_ne_of_nodup hnodup

theorem left_node_ne : ∀ r ∈ (left before ++ left inside) ++ left after, r.node ≠ er.node := by
  have hnodup := h₀.left_nodup
  have hleft : left ev = (left before ++ left inside) ++ er :: left after := by
    rw [h₀.eq]
    simp
  rw [hleft] at hnodup
  exact node_ne_of_nodup hnodup

theorem marks_end (hend : er.isEnd endNode = true)
    (hmarked : (f || er.isStart startNode) = true)
    (hstart : ∀ r ∈ entered inside ++ entered after, r.isStart startNode = false) :
    marks h startNode endNode f (.enter er :: (inside ++ .leave er :: after)) =
      er :: if callsIb h endNode then [] else entered inside := by
  rw [List.forall_mem_append] at hstart
  have hnode := node_of_isEnd hend
  have hflag : flagStep h startNode endNode f (.enter er) = !callsIb h endNode := by
    simp [flagStep, Row.stopsAt, hnode, hmarked]
  have hinside : marks h startNode endNode (!callsIb h endNode) inside =
      if callsIb h endNode then [] else entered inside := by
    cases callsIb h endNode with
    | true => exact (marks_of_no_start h endNode hstart.1).1
    | false =>
      refine (marks_of_no_end h startNode (fun r hr => ?_) fun r hr => ?_).1
      · exact hnode ▸ h₀.node_ne r (List.mem_append_right _ (List.mem_append_left _ hr))
      · exact hnode ▸ h₀.left_node_ne r (List.mem_append_left _ (List.mem_append_right _ hr))
  have hleave (g : Bool) : flagStep h startNode endNode g (.leave er) = false := by
    rw [flagStep, if_pos hend]
  rw [marks, if_pos hmarked, hflag, marks_append, hinside, marks, hleave,
    (marks_of_no_start h endNode hstart.2).1, List.append_nil]
  rfl

theorem exists_of_stretch (hend : er.isEnd endNode = true)
    (hstretch : Stretch startNode endNode (entered ev) m) :
    ∃ u l, m = l ++ [er] ∧ entered before = u ++ l := by
  obtain ⟨u, v, hwithin⟩ := hstretch.within
  obtain ⟨e, he, hstop⟩ := hstretch.stop
  obtain ⟨l, rfl⟩ := List.getLast?_eq_some_iff.mp he
  have hmem : e ∈ entered ev := by
    rw [← hwithin]
    simp
  have hnode : e.node = er.node := by rw [node_of_isEnd hend, node_of_isEnd hstop]
  obtain rfl : e = er := List.inj_on_of_nodup_map h₀.nodup hmem h₀.mem hnode
  refine ⟨u, l, rfl, ?_⟩
  have hsplit : (u ++ l) ++ e :: v = entered before ++ e :: (entered inside ++ entered after) := by
    rw [← h₀.entered_eq, ← hwithin]
    simp
  have hnodup := h₀.nodup
  rw [h₀.entered_eq, ← hsplit] at hnodup
  have hne := node_ne_of_nodup hnodup
  rw [List.append_cons_inj_of_notMem (fun he => hne e (List.mem_append_left _ he) rfl)
    (fun he => hne e (List.mem_append_right _ he) rfl)] at hsplit
  exact hsplit.1.symm

/-- **What the recursion marks: from the start to the end, and what is below the end.** -/
theorem marks_of_stretch (hend : er.isEnd endNode = true)
    (hstretch : Stretch startNode endNode (entered ev) m) :
    marks h startNode endNode false ev =
      m ++ if callsIb h endNode then [] else entered inside := by
  obtain ⟨u, l, rfl, hbefore⟩ := h₀.exists_of_stretch hend hstretch
  obtain ⟨sr, hsr, hstart⟩ := hstretch.start
  cases l with
  | nil =>
    obtain rfl : er = sr := by simpa using hsr
    have hquiet : ∀ r ∈ entered before ++ (entered inside ++ entered after),
        r.isStart startNode = false := fun r hr => isStart_of_ne hstart (h₀.node_ne r hr)
    rw [List.forall_mem_append] at hquiet
    obtain ⟨hmarks, hflag⟩ := marks_of_no_start h endNode hquiet.1
    rw [h₀.eq, marks_append, hmarks, hflag, h₀.marks_end hend (by rw [hstart, Bool.or_true]) hquiet.2]
    rfl
  | cons a l =>
    obtain rfl : a = sr := by simpa using hsr
    obtain ⟨first, mid, rfl, rfl, rfl⟩ := exists_enter hbefore
    have hnodup := h₀.nodup
    rw [h₀.entered_eq, entered_append, entered_enter, List.append_assoc, List.cons_append] at hnodup
    have hquiet : ∀ r ∈ entered first ++ (entered mid ++ er :: (entered inside ++ entered after)),
        r.isStart startNode = false := fun r hr =>
      isStart_of_ne hstart (node_ne_of_nodup hnodup r hr)
    simp only [List.forall_mem_append, List.forall_mem_cons] at hquiet
    obtain ⟨hfirst, -, -, hinside, hafter⟩ := hquiet
    obtain ⟨hmarks, hflag⟩ := marks_of_no_start h endNode hfirst
    have hnode := node_of_isEnd hend
    have hne := h₀.node_ne
    have hleft := h₀.left_node_ne
    simp only [entered_append, entered_enter, left_append, left_enter, List.forall_mem_append,
      List.forall_mem_cons, hnode] at hne hleft
    have hstep : flagStep h startNode endNode false (.enter a) = true := by
      simp [flagStep, Row.stopsAt, hstart, hne.1.2.1]
    obtain ⟨hmid, hflagmid⟩ :=
      marks_of_no_end h startNode hne.1.2.2 hleft.1.1.2
    have hrest := h₀.marks_end (h := h) hend (f := true) rfl
      (List.forall_mem_append.mpr ⟨hinside, hafter⟩)
    rw [h₀.eq, List.append_assoc, List.cons_append, marks_append, hmarks, hflag, marks, hstart,
      hstep, marks_append, hmid, hflagmid, hrest]
    simp

theorem node_ne_of_mem_stretch (hend : er.isEnd endNode = true)
    (hstretch : Stretch startNode endNode (entered ev) m) {r r' : Row} (hr : r ∈ m)
    (hr' : r' ∈ entered inside) : r.node ≠ r'.node := by
  obtain ⟨u, l, rfl, hbefore⟩ := h₀.exists_of_stretch hend hstretch
  rcases List.mem_append.mp hr with hr | hr
  · have hnodup := h₀.nodup
    rw [h₀.entered_eq, hbefore, List.map_append, List.nodup_append'] at hnodup
    intro heq
    refine hnodup.2.2 (List.mem_map_of_mem (List.mem_append_right u hr)) ?_
    rw [heq]
    exact List.mem_map_of_mem (List.mem_cons_of_mem _ (List.mem_append_left _ hr'))
  · obtain rfl := List.mem_singleton.mp hr
    exact (h₀.node_ne r' (List.mem_append_right _ (List.mem_append_left _ hr'))).symm

end Around

theorem OnePath.exists_around (hpath : OnePath h t root ev) (her : er ∈ entered ev) :
    ∃ before inside after bs, Around ev before inside after er ∧ er.below t = some bs ∧
      Tour (Row.below t) bs inside := by
  obtain ⟨_, _, htour⟩ := hpath.tour
  obtain ⟨bs, before, inside, after, hbs, hinside, heq⟩ := htour.split her
  refine ⟨before, inside, after, bs, ⟨heq, hpath.nodup, ?_⟩, hbs, hinside⟩
  exact (htour.left_perm_entered.map Row.node).nodup_iff.mpr hpath.nodup

theorem exists_field_below {r : Row} {rows : List Row} (hrows : r.below t = some rows) {c : ℕ}
    (hc : FieldOf t r.node c) : ∃ r' ∈ rows, r'.node = c ∧ r'.isPacket = false := by
  obtain ⟨cs, hcs, hc⟩ := hc
  obtain ⟨cs', shared, hcs', -, rfl⟩ := exists_of_rowsBelow hrows
  obtain rfl : cs = cs' := Option.some.inj (hcs.symm.trans hcs')
  obtain ⟨i, hi⟩ := List.mem_iff_getElem?.mp hc
  have hmem : (c, i) ∈ cs.zipIdx := List.mk_mem_zipIdx_iff_getElem?.mpr hi
  exact ⟨_, List.mem_append_left _ (List.mem_map_of_mem hmem), rfl, rfl⟩

theorem exists_packet_below {r : Row} {rows : List Row} (hrows : r.below t = some rows)
    {shared : List ℕ} (hshared : t.sharedChildren r.node = some shared) {c : ℕ} (hc : c ∈ shared) :
    ∃ r' ∈ rows, r'.node = c ∧ r'.isPacket = true := by
  obtain ⟨cs', shared', -, hshared', rfl⟩ := exists_of_rowsBelow hrows
  obtain rfl : shared = shared' := Option.some.inj (hshared.symm.trans hshared')
  obtain ⟨i, hi⟩ := List.mem_iff_getElem?.mp hc
  have hmem : (c, cs'.length + i) ∈ shared.zipIdx cs'.length :=
    List.mk_add_mem_zipIdx_iff_getElem?.mpr hi
  exact ⟨_, List.mem_append_right _ (List.mem_map_of_mem hmem), rfl, rfl⟩

section Inside

variable {bs : List Row} (hbs : er.below t = some bs) (hinside : Tour (Row.below t) bs inside)
include hbs hinside

theorem exists_field_inside {n : ℕ} (hn : TransGen (FieldOf t) er.node n) :
    ∃ r ∈ entered inside, r.node = n ∧ r.isPacket = false := by
  induction hn with
  | single hfield =>
    obtain ⟨r, hr, hnode⟩ := exists_field_below hbs hfield
    exact ⟨r, hinside.mem_of_root hr, hnode⟩
  | tail _ hfield ih =>
    obtain ⟨r, hr, rfl, -⟩ := ih
    obtain ⟨rows, hrows, hall⟩ := hinside.below_of_mem hr
    obtain ⟨r', hr', hnode⟩ := exists_field_below hrows hfield
    exact ⟨r', hall r' hr', hnode⟩

theorem transGen_of_mem_inside
    (hquiet : ∀ n, ReflTransGen (FieldOf t) er.node n → t.sharedChildren n = some []) :
    ∀ r ∈ entered inside, TransGen (FieldOf t) er.node r.node := by
  have hstep (a : Row) (rows : List Row) (hrows : a.below t = some rows)
      (ha : ReflTransGen (FieldOf t) er.node a.node) :
      ∀ r ∈ rows, TransGen (FieldOf t) er.node r.node := by
    obtain ⟨cs, shared, hcs, hshared, rfl⟩ := exists_of_rowsBelow hrows
    obtain rfl := Option.some.inj ((hquiet a.node ha).symm.trans hshared)
    intro r hr
    rw [List.zipIdx_nil, List.map_nil, List.append_nil, List.mem_map] at hr
    obtain ⟨c, hc, rfl⟩ := hr
    have hmem := List.mem_of_getElem? (List.mem_zipIdx_iff_getElem?.mp hc)
    exact TransGen.tail' ha ⟨cs, hcs, hmem⟩
  refine hinside.induct (hstep er bs hbs .refl) fun a rows ha hrows => ?_
  exact hstep a rows hrows ha.to_reflTransGen

end Inside

theorem Stretch.exists_end {rows : List Row} (hstretch : Stretch startNode endNode rows m) :
    ∃ er ∈ rows, er.isEnd endNode = true := by
  obtain ⟨er, her, hend⟩ := hstretch.stop
  exact ⟨er, hstretch.within.subset (List.mem_of_getLast? her), hend⟩

theorem Stretch.exists_start {rows : List Row} (hstretch : Stretch startNode endNode rows m) :
    ∃ sr ∈ rows, sr.isStart startNode = true := by
  obtain ⟨sr, hsr, hstart⟩ := hstretch.start
  exact ⟨sr, hstretch.within.subset (List.mem_of_head? hsr), hstart⟩

variable (h t startNode endNode) in
/-- The end follows the start, and no more packets are below its fields unless it calls an indirect
buffer. -/
def EndsRange (rows : List Row) : Prop :=
  (∃ r ∈ rows, r.isStart startNode = true) →
    (∃ m, Stretch startNode endNode rows m) ∧
      (callsIb h endNode = true ∨
        ∀ n, ReflTransGen (FieldOf t) endNode n → t.sharedChildren n = some [])

theorem OnePath.highlighted_iff_of_endsRange (hpath : OnePath h t root ev)
    (hends : EndsRange h t startNode endNode (entered ev)) (n : ℕ) :
    (∃ r ∈ marks h startNode endNode false ev, r.node = n) ↔
      Highlighted h t startNode endNode (entered ev) n := by
  by_cases hstart : ∃ r ∈ entered ev, r.isStart startNode = true
  · obtain ⟨⟨m, hm⟩, hquiet⟩ := hends hstart
    obtain ⟨er, her, hend⟩ := hm.exists_end
    obtain ⟨before, inside, after, bs, h₀, hbs, hinside⟩ := hpath.exists_around her
    have hnode := node_of_isEnd hend
    constructor
    · rintro ⟨r, hr, rfl⟩
      rw [h₀.marks_of_stretch hend hm, List.mem_append] at hr
      rcases hr with hr | hr
      · exact ⟨m, hm, .inl ⟨r, hr, rfl⟩⟩
      · cases hcalls : callsIb h endNode with
        | true => simp [hcalls] at hr
        | false =>
          simp only [hcalls, Bool.false_eq_true, if_false] at hr
          refine ⟨m, hm, .inr ⟨hcalls, ?_⟩⟩
          rw [← hnode] at hquiet ⊢
          refine transGen_of_mem_inside hbs hinside (hquiet.resolve_left ?_) r hr
          rw [hnode, hcalls]
          exact Bool.false_ne_true
    · rintro ⟨m', hm', ⟨r, hr, rfl⟩ | ⟨hcalls, hn⟩⟩
      · refine ⟨r, ?_, rfl⟩
        rw [h₀.marks_of_stretch hend hm']
        exact List.mem_append_left _ hr
      · rw [← hnode] at hn
        obtain ⟨r, hr, rfl, -⟩ := exists_field_inside hbs hinside hn
        refine ⟨r, ?_, rfl⟩
        rw [h₀.marks_of_stretch hend hm', hcalls]
        exact List.mem_append_right _ hr
  · have hquiet : ∀ r ∈ entered ev, r.isStart startNode = false := by
      intro r hr
      rw [← Bool.not_eq_true]
      exact fun hr' => hstart ⟨r, hr, hr'⟩
    rw [(marks_of_no_start h endNode hquiet).1]
    constructor
    · rintro ⟨r, hr, -⟩
      cases hr
    · rintro ⟨m, hm, -⟩
      exact absurd hm.exists_start hstart

/-- **What is marked is what is expected exactly when the end of the range is as it should be.** -/
theorem OnePath.highlighted_iff (hpath : OnePath h t root ev) :
    (∀ n, (∃ r ∈ marks h startNode endNode false ev, r.node = n) ↔
      Highlighted h t startNode endNode (entered ev) n) ↔
      EndsRange h t startNode endNode (entered ev) := by
  refine ⟨fun hall hstart => ?_, hpath.highlighted_iff_of_endsRange⟩
  obtain ⟨sr, hsr, hs⟩ := hstart
  obtain ⟨m, hm, -⟩ := (hall sr.node).mp ⟨sr, isStart_mem_marks hsr hs false, rfl⟩
  refine ⟨⟨m, hm⟩, ?_⟩
  cases hcalls : callsIb h endNode with
  | true => exact .inl rfl
  | false =>
    obtain ⟨er, her, hend⟩ := hm.exists_end
    obtain ⟨before, inside, after, bs, h₀, hbs, hinside⟩ := hpath.exists_around her
    have hin : ∀ r ∈ entered inside, r ∈ entered ev := by
      intro r hr
      rw [h₀.entered_eq]
      exact List.mem_append_right _ (List.mem_cons_of_mem _ (List.mem_append_left _ hr))
    refine .inr fun n hn => ?_
    -- a row with what is below it
    obtain ⟨a, rows, rfl, hrows, hall'⟩ : ∃ (a : Row) (rows : List Row), a.node = n ∧ a.below t = some rows ∧
        ∀ r ∈ rows, r ∈ entered inside := by
      rw [← node_of_isEnd hend] at hn
      rcases Relation.reflTransGen_iff_eq_or_transGen.mp hn with rfl | hn
      · exact ⟨er, bs, rfl, hbs, fun r hr => hinside.mem_of_root hr⟩
      · obtain ⟨a, ha, rfl, -⟩ := exists_field_inside hbs hinside hn
        obtain ⟨rows, hrows, hall'⟩ := hinside.below_of_mem ha
        exact ⟨a, rows, rfl, hrows, hall'⟩
    obtain ⟨-, shared, -, hshared, -⟩ := exists_of_rowsBelow hrows
    rw [hshared, Option.some.injEq, List.eq_nil_iff_forall_not_mem]
    intro c hc
    obtain ⟨pr, hpr, rfl, hpacket⟩ := exists_packet_below hrows hshared hc
    have hmarked : pr ∈ marks h startNode endNode false ev := by
      rw [h₀.marks_of_stretch hend hm, hcalls]
      exact List.mem_append_right _ (hall' pr hpr)
    obtain ⟨m', hm', ⟨r, hr, heq⟩ | ⟨-, hfield⟩⟩ := (hall pr.node).mp ⟨pr, hmarked, rfl⟩
    · exact h₀.node_ne_of_mem_stretch hend hm' hr (hall' pr hpr) heq
    · rw [← node_of_isEnd hend] at hfield
      obtain ⟨r, hr, heq, hr'⟩ := exists_field_inside hbs hinside hfield
      obtain rfl := hpath.eq_of_node (hin r hr) (hin pr (hall' pr hpr)) heq
      rw [hr'] at hpacket
      cases hpacket

end Marks

end Dive.CommandBufferModel
