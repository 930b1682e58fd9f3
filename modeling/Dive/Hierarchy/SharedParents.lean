import Dive.Hierarchy.SubmitChildren

/-!
# The shared parents of packets

* `Place`: the open IBs, and those that they continue by chaining; `StartsAt`: the level at which an
  IB starts, and the packet before one that is called or chained to; `startsAt_of_succeeds`.
* `ParentCreator`: `RangeCreator` with the parent of the packets of each level.
* `ParentsRight`: the packets of level 1 are below the submit, those of a called IB, and of the IBs
  that it chains to, below the packet that calls it.
* `ParentsFollow`: the parents of the open IBs; `ParentsFollow.step`.
* **`parentsRight_iff`**: the parents are right exactly when no packet of level 1 runs in an IB that
  starts after an IB packet of the submit, and none in an IB that a called one chains to.
-/

namespace Dive

/-! ## How IBs start -/

/-- `CP_INDIRECT_BUFFER_PFE` and `CP_INDIRECT_BUFFER_PFD`, which call an IB. -/
def Pm4Header.isCall (h : Pm4Header) : Bool :=
  h.isOpcode CP_INDIRECT_BUFFER_PFE || h.isOpcode CP_INDIRECT_BUFFER_PFD

/-- The header, if the call is for a packet. -/
def Event.header : Event → Option Pm4Header
  | .packet _ _ h => some h
  | _ => none

/-- The IBs that were entered and are not left, innermost first. An IB that is chained to continues
the one that was entered. -/
def roots (n : Nesting) (rs : List OpenIb) : Event → List OpenIb
  | .ibStart q ibIndex info _ =>
    if q.ibType = .kChain then rs else ⟨n.started, q, ibIndex, info⟩ :: rs
  | .ibEnd _ _ => rs.tail
  | .packet _ _ _ => rs

/-- The open IBs, the header of the packet that the last call is for, and the IBs that the open ones
continue. -/
abbrev Place : Type := Nesting × Option Pm4Header × List OpenIb

/-- The place after a call. -/
def place (s : Place) (e : Event) : Option Place :=
  (nest true s.1 e).map fun n => (n, e.header, roots s.1 s.2.2 e)

/-- An IB starts one level below the innermost open one, or at its level if it is chained to; those
of level 1 are normal. An IB that is called, or chained to, starts right after the packet that does
so, and where a called IB chains, the callback says that the next IB is called. -/
def StartsAt (s : Place) : Event → Prop
  | .ibStart q _ info ibType =>
    info.ibLevel = s.1.opened.length + (if q.ibType = .kChain then 0 else 1) ∧
      (info.ibLevel = 1 → ibType = .kNormal) ∧
      (q.ibType = .kCall → ∃ h, s.2.1 = some h ∧ h.isCall = true) ∧
      (q.ibType = .kChain → (∃ h, s.2.1 = some h ∧ h.isOpcode CP_INDIRECT_BUFFER_CHAIN = true) ∧
        ∀ r rs, s.2.2 = r :: rs → r.queued.ibType = .kCall → ibType = .kCall)
  | _ => True

namespace Emulation

variable {E : Emulation} {ibs : List IndirectBufferInfo} {t : List Event} {ibIndex level : ℕ}
  {w : Work} {qs : List QueuedIb}

theorem place_of_nest {n n' : Nesting} {e : Event} (h : nest true n e = some n')
    (last : Option Pm4Header) (rs : List OpenIb) :
    place (n, last, rs) e = some (n', e.header, roots n rs e) := by
  rw [place, h]
  rfl

theorem PacketAt.call {va next : UInt64} {resets : Bool} {refs : List QueuedIb} {q : QueuedIb}
    (hp : PacketAt E va resets refs next) (hq : q ∈ nonEmpty refs) (hc : q.ibType = .kCall) :
    nonEmpty refs = [q] ∧ (E.headerAt va).isCall = true := by
  obtain ⟨hmem, hsize⟩ := mem_nonEmpty.mp hq
  cases hp with
  | bins hv hop hend =>
    obtain ⟨i, -, hi⟩ := List.mem_flatMap.mp hmem
    simp only [List.mem_cons, List.not_mem_nil, or_false] at hi
    rcases hi with rfl | rfl <;> cases hc
  | single hv hop =>
    unfold packetRefs at hmem ⊢
    split_ifs at hmem ⊢ with h₁ h₂ h₃ h₄ h₅
    · rw [List.mem_singleton.mp hmem] at hc
      cases hc
    · rw [List.mem_singleton] at hmem
      subst hmem
      rw [nonEmpty_cons, if_neg hsize]
      rw [Bool.not_eq_true] at h₂
      rw [h₂, Bool.or_false] at h₁
      exact ⟨rfl, h₁⟩
    · rw [List.mem_singleton.mp hmem] at hc
      cases hc
    · rw [drawStatesFrom_type _ _ _ hmem] at hc
      cases hc
    · obtain ⟨i, -, rfl⟩ := List.mem_map.mp hmem
      cases hc
    · exact absurd hmem List.not_mem_nil

theorem PacketAt.chain {va next : UInt64} {resets : Bool} {refs : List QueuedIb} {q : QueuedIb}
    (hp : PacketAt E va resets refs next) (hq : q ∈ nonEmpty refs) (hc : q.ibType = .kChain) :
    (E.headerAt va).isOpcode CP_INDIRECT_BUFFER_CHAIN = true := by
  obtain ⟨hmem, -⟩ := mem_nonEmpty.mp hq
  cases hp with
  | bins hv hop hend =>
    obtain ⟨i, -, hi⟩ := List.mem_flatMap.mp hmem
    simp only [List.mem_cons, List.not_mem_nil, or_false] at hi
    rcases hi with rfl | rfl <;> cases hc
  | single hv hop =>
    unfold packetRefs at hmem
    split_ifs at hmem with h₁ h₂ h₃ h₄ h₅
    · exact h₂
    · rw [List.mem_singleton.mp hmem] at hc
      cases hc
    · rw [List.mem_singleton.mp hmem] at hc
      cases hc
    · rw [drawStatesFrom_type _ _ _ hmem] at hc
      cases hc
    · obtain ⟨i, -, rfl⟩ := List.mem_map.mp hmem
      cases hc
    · exact absurd hmem List.not_mem_nil

/-- The packet before the IBs, where they are called or chained to. -/
def Announced (refs : List QueuedIb) (last : Option Pm4Header) : Prop :=
  ∀ q ∈ refs,
    (q.ibType = .kCall → refs = [q] ∧ ∃ h, last = some h ∧ h.isCall = true) ∧
    (q.ibType = .kChain →
      ∃ h, last = some h ∧ h.isOpcode CP_INDIRECT_BUFFER_CHAIN = true)

/-- What the work starts. -/
def Work.Starts (ibIndex level : ℕ) : Work → List Event → Prop
  | .body ib _, t => ∀ k o os fresh last r rs, OpenIb.IsAt o ibIndex level ib →
      level = os.length + 1 → (level = 1 → ib.ibType = .kNormal) →
      (r.queued.ibType = .kCall → ib.ibType = .kCall) →
      Monitor.Meets place StartsAt (⟨k, o :: os, fresh⟩, last, r :: rs) t ∧
        ∃ k', Monitor.run place (⟨k, o :: os, fresh⟩, last, r :: rs) t =
          some (⟨k', os, false⟩, none, rs)
  | .after ib refs _, t => ∀ k o os fresh last r rs, OpenIb.IsAt o ibIndex level ib →
      level = os.length + 1 → (level = 1 → ib.ibType = .kNormal) →
      (r.queued.ibType = .kCall → ib.ibType = .kCall) →
      (nonEmpty refs ≠ [] → fresh = false) → Announced (nonEmpty refs) last →
      Monitor.Meets place StartsAt (⟨k, o :: os, fresh⟩, last, r :: rs) t ∧
        ∃ k', Monitor.run place (⟨k, o :: os, fresh⟩, last, r :: rs) t =
          some (⟨k', os, false⟩, none, rs)
  | .ibs qs, t => (∀ q ∈ qs, q.ibType ≠ .kNormal ∧ q.ibType ≠ .kChain) →
      ∀ (n : Nesting) last rs, level = n.opened.length + 1 → n.opened ≠ [] →
      (qs ≠ [] → n.fresh = false) → Announced qs last →
      Monitor.Meets place StartsAt (n, last, rs) t ∧
        ∃ k' fresh last', Monitor.run place (n, last, rs) t =
          some (⟨k', n.opened, fresh⟩, last', rs)

theorem starts_of_runs (h : Runs E ibIndex level w t) : w.Starts ibIndex level t := by
  induction h with
  | @ended level ib va hend =>
    intro k o os fresh last r rs ho hl hn hr
    have hstep := place_of_nest (@nest_end ibIndex level k o os fresh ib ho) last (r :: rs)
    rw [Monitor.meets_cons hstep, Monitor.run_cons_of hstep]
    exact ⟨⟨trivial, trivial⟩, k, rfl⟩
  | @packet level ib va next resets refs t hin hp h ih =>
    intro k o os fresh last r rs ho hl hn hr
    have hstep := place_of_nest
      (@nest_packet ibIndex level k o os fresh va (E.headerAt va) ib ho) last (r :: rs)
    rw [Monitor.meets_cons hstep, Monitor.run_cons_of hstep]
    obtain ⟨hmeets, hrun⟩ := ih k o os (fresh && !(E.headerAt va).isCommand)
      (some (E.headerAt va)) r rs ho hl hn hr
      (fun hne => by rw [hp.isCommand hne, Bool.not_true, Bool.and_false])
      fun q hq => ⟨fun hc => ⟨(hp.call hq hc).1, _, rfl, (hp.call hq hc).2⟩,
        fun hc => ⟨_, rfl, hp.chain hq hc⟩⟩
    exact ⟨⟨trivial, hmeets⟩, hrun⟩
  | called hc h h' ih ih' =>
    intro k o os fresh last r rs ho hl hn hr hf hcall
    obtain ⟨hmeets, k₁, fresh₁, last₁, hrun⟩ := ih hc ⟨k, o :: os, fresh⟩ last (r :: rs)
      (congrArg Nat.succ hl) (List.cons_ne_nil _ _) hf hcall
    obtain ⟨hmeets', hrun'⟩ := ih' k₁ o os fresh₁ last₁ r rs ho hl hn hr
    rw [Monitor.meets_append hrun, Monitor.run_append_of hrun]
    exact ⟨⟨hmeets, hmeets'⟩, hrun'⟩
  | @chained level ib next refs q t hq hc hend h ih =>
    intro k o os fresh last r rs ho hl hn hr hf hcall
    obtain rfl := hf (by rw [hq]; exact List.cons_ne_nil _ _)
    have hstep := place_of_nest (@nest_chain E ibIndex level q k o os ib ho hc ib.ibType) last
      (r :: rs)
    have hroots : roots ⟨k, o :: os, false⟩ (r :: rs)
        (enterEvent q ibIndex level (E.enteredIb q ib.ibType)) = r :: rs := if_pos hc
    rw [hroots] at hstep
    obtain ⟨hmeets, hrun⟩ := ih (k + 1) _ os true none r rs entered_isAt hl hn hr
    rw [Monitor.meets_cons hstep, Monitor.run_cons_of hstep]
    refine ⟨⟨⟨?_, hn, fun hcall => ?_, fun _ => ⟨?_, ?_⟩⟩, hmeets⟩, hrun⟩
    · rw [if_pos hc]
      exact hl
    · cases hc.symm.trans hcall
    · exact (hcall q (by rw [hq]; exact List.mem_singleton_self q)).2 hc
    · intro r' rs' heq hkind
      rw [← (List.cons.inj heq).1] at hkind
      exact hr hkind
  | nil => exact fun _ n last rs _ _ _ _ => ⟨trivial, n.started, n.fresh, last, rfl⟩
  | @cons level q qs t t' h h' ih ih' =>
    intro hqs n last rs hl hopen hf hcall
    have hfresh := hf (List.cons_ne_nil _ _)
    have hq := hqs q List.mem_cons_self
    have hlevel : level ≠ 1 := by
      have hpos := List.length_pos_iff.mpr hopen
      omega
    have hstep : place (n, last, rs) (enterEvent q ibIndex level (E.enteredIb q q.ibType)) =
        some (⟨n.started + 1, entered E q ibIndex level q.ibType n.started :: n.opened, true⟩,
          none, entered E q ibIndex level q.ibType n.started :: rs) := by
      rw [place_of_nest (nest_enter hq.2 fun _ => hfresh) last rs]
      exact congrArg (fun l => some (_, _, l)) (if_neg hq.2)
    obtain ⟨hmeets, k₁, hrun⟩ := ih (n.started + 1)
      (entered E q ibIndex level q.ibType n.started) n.opened true none
      (entered E q ibIndex level q.ibType n.started) rs entered_isAt hl
      (fun h1 => absurd h1 hlevel) fun hkind => hkind
    obtain ⟨hmeets', k₂, fresh₂, last₂, hrun'⟩ := ih'
      (fun q' h => hqs q' (List.mem_cons_of_mem q h)) ⟨k₁, n.opened, false⟩ none rs hl hopen
      (fun _ => rfl) fun q' h => ⟨fun hc => by
        have hone := ((hcall q' (List.mem_cons_of_mem q h)).1 hc).1
        rw [List.cons.injEq] at hone
        rw [hone.2] at h
        exact absurd h List.not_mem_nil,
        fun hc => absurd hc (hqs q' (List.mem_cons_of_mem q h)).2⟩
    rw [List.cons_append, Monitor.meets_cons hstep, Monitor.run_cons_of hstep]
    rw [Monitor.meets_append hrun, Monitor.run_append_of hrun]
    refine ⟨⟨⟨?_, fun h1 => absurd h1 hlevel,
      fun hc => ((hcall q List.mem_cons_self).1 hc).2, fun hc => absurd hc hq.2⟩, hmeets,
      hmeets'⟩, k₂, fresh₂, last₂, hrun'⟩
    rw [if_neg hq.2]
    exact hl

theorem startsAt_of_submitRuns (h : SubmitRuns E ibIndex qs t)
    (hqs : ∀ q ∈ qs, q.ibType = .kNormal) : ∀ k fresh last,
      Monitor.Meets place StartsAt (⟨k, [], fresh⟩, last, []) t := by
  induction h with
  | nil => exact fun _ _ _ => trivial
  | @cons ibIndex q qs t t' h h' ih =>
    intro k fresh last
    have hq := hqs q List.mem_cons_self
    have hne : q.ibType ≠ .kChain := fun hc => IbType.noConfusion (hq.symm.trans hc)
    have hstep : place (⟨k, [], fresh⟩, last, [])
        (enterEvent q ibIndex 1 (E.enteredIb q q.ibType)) =
        some (⟨k + 1, [entered E q ibIndex 1 q.ibType k], true⟩, none,
          [entered E q ibIndex 1 q.ibType k]) := by
      rw [place_of_nest (nest_enter hne fun hne => absurd rfl hne) last []]
      exact congrArg (fun l => some (_, _, l)) (if_neg hne)
    obtain ⟨hmeets, k₁, hrun⟩ := starts_of_runs h (k + 1) (entered E q ibIndex 1 q.ibType k) []
      true none (entered E q ibIndex 1 q.ibType k) [] entered_isAt rfl (fun _ => hq)
      fun hkind => hkind
    rw [List.cons_append, Monitor.meets_cons hstep, Monitor.meets_append hrun]
    refine ⟨⟨?_, fun _ => hq, fun hc => IbType.noConfusion (hq.symm.trans hc),
      fun hc => absurd hc hne⟩, hmeets,
      ih (fun q' h => hqs q' (List.mem_cons_of_mem q h)) k₁ false none⟩
    rw [if_neg hne]
    rfl

/-- The place in front of a submit. -/
def outermost : Place := ({}, none, [])

theorem startsAt_of_succeeds (h : E.Succeeds ibs t) :
    Monitor.Meets place StartsAt outermost t := by
  refine startsAt_of_submitRuns (submitRuns_of_succeeds h) (fun q hq => ?_) 0 true none
  obtain ⟨info, -, rfl⟩ := List.mem_map.mp (mem_nonEmpty.mp hq).1
  rfl

end Emulation

/-! ## The creator -/

/-- The packets of which `OnPacket` remembers the node. -/
def Pm4Header.isIbPacket (h : Pm4Header) : Bool :=
  h.isOpcode CP_INDIRECT_BUFFER_PFE || h.isOpcode CP_INDIRECT_BUFFER_PFD ||
    h.isOpcode CP_INDIRECT_BUFFER_CHAIN || h.isOpcode CP_SET_AMBLE

/-- The call is for an IB packet. -/
def Event.isIbPacket : Event → Bool
  | .packet _ _ h => h.isIbPacket
  | _ => false

/-- The call starts an IB of the top level. -/
def Event.startsTop : Event → Bool
  | .ibStart _ _ info _ => info.ibLevel = 1
  | _ => false

/-- An IB of the top level has started after an IB packet. -/
def StartedLate (t : List Event) : Prop :=
  ¬ t.Pairwise fun e e' => e.isIbPacket = true → e'.startsTop = false

/-- `RangeCreator` with the shared parents. `sharedNodeIbParentStack` has the parent of the packets
of each level, `groupInfo` the node and the address of each group of the last `CP_SET_DRAW_STATE`,
and `sharedChildren` the parent and the index of each packet node. The index `UINT64_MAX` is
`none`. -/
structure ParentCreator extends RangeCreator where
  curIbPacketNodeIndex : Option ℕ := some 0
  curIbLevel : ℕ := 0
  sharedNodeIbParentStack : ℕ → Option ℕ := fun _ => some 0
  groupInfo : List (ℕ × UInt64) := []
  sharedChildren : List (Option ℕ × ℕ) := []

namespace ParentCreator

open Function (update)

section Calls

/- `groups` says which groups a packet has, by the index of its node. -/
variable (kind : ℕ → PacketKind) (fields : ℕ → ℕ) (groups : ℕ → List (ℕ × UInt64))
  (C : ParentCreator)

/-- `OnSubmitStart`. -/
def onSubmitStart (submitIndex : ℕ) : ParentCreator :=
  { C with
    toRangeCreator := C.toRangeCreator.onSubmitStart submitIndex
    curIbLevel := 1
    sharedNodeIbParentStack := update C.sharedNodeIbParentStack 1 (some C.nodes.length)
    curIbPacketNodeIndex := none }

/-- The parent of the packets of an IB, if the IB sets it. -/
def ibPacketParent (info : IndirectBufferInfo) (ibType : IbType) (parent : Option ℕ) : Option ℕ :=
  if ibType = .kDrawState then
    (C.groupInfo.find? fun group => group.2 = info.vaAddr).map Prod.fst
  -- the field node between the packet and the IB
  else if ibType = .kBinPrefix ∨ ibType = .kBinCommon ∨ ibType = .kFixedStrideDrawTable then
    some C.nodes.length
  -- the last IB packet of the submit
  else match C.curIbPacketNodeIndex with
    | some packetNodeIndex => some packetNodeIndex
    | none => parent

/-- `OnIbStart`. -/
def onIbStart (ibIndex : ℕ) (info : IndirectBufferInfo) (ibType : IbType) : ParentCreator :=
  { C with
    toRangeCreator := C.toRangeCreator.onIbStart ibIndex info ibType
    curIbLevel := info.ibLevel
    sharedNodeIbParentStack := update C.sharedNodeIbParentStack info.ibLevel
      (C.ibPacketParent info ibType (C.sharedNodeIbParentStack info.ibLevel)) }

/-- `OnIbEnd`. -/
def onIbEnd (info : IndirectBufferInfo) : Option ParentCreator :=
  C.toRangeCreator.onIbEnd.map fun C' => { C with toRangeCreator := C', curIbLevel := info.ibLevel }

/-- `OnPacket`; an IB packet is no event. -/
def onPacket (h : Pm4Header) : Option ParentCreator :=
  if h.type ≠ 4 ∧ h.type ≠ 7 then some C
  else (C.toRangeCreator.onPacket kind fields h).map fun C' => { C with
    toRangeCreator := C'
    sharedChildren := C.sharedChildren ++ [(C.sharedNodeIbParentStack C.curIbLevel, C.nodes.length)]
    groupInfo := if h.isOpcode CP_SET_DRAW_STATE then groups C.nodes.length else C.groupInfo
    curIbPacketNodeIndex :=
      if h.isIbPacket then some C.nodes.length else C.curIbPacketNodeIndex }

/-- The calls of the emulator. -/
def onEvent : Event → Option ParentCreator
  | .ibStart _ ibIndex info ibType => some (C.onIbStart ibIndex info ibType)
  | .ibEnd _ info => C.onIbEnd info
  | .packet _ _ h => C.onPacket kind fields groups h

/-- The calls of the emulator for a submit. -/
def onSubmit (s : RangeCreator.SubmitTrace) : Option ParentCreator :=
  (Monitor.run (onEvent kind fields groups) (C.onSubmitStart s.submitIndex) s.trace).map fun C =>
    { C with toRangeCreator := C.toRangeCreator.onSubmitEnd s.presents }

end Calls

/-! ## Right parents -/

section Parents

variable (kind : ℕ → PacketKind) (fields : ℕ → ℕ) (groups : ℕ → List (ℕ × UInt64))

/-- The IB is called by the packet of node `p`, after which it starts. -/
def CalledBy (base : ParentCreator) (t : List Event) (o : OpenIb) (p : ℕ) : Prop :=
  ∃ u ibIndex va h ibType v n C,
    t = u ++ .packet ibIndex va h :: .ibStart o.queued o.ibIndex o.info ibType :: v ∧
      h.isCall = true ∧ Monitor.run (nest true) {} (u ++ [.packet ibIndex va h]) = some n ∧
      n.started = o.number ∧ Monitor.run (onEvent kind fields groups) base u = some C ∧
      p = C.nodes.length

/-- Every packet that is executed at the top level becomes a shared child of the submit, and every
packet of a called IB, or of an IB that a called one chains to, one of the packet of the call. -/
def ParentsRight (base : ParentCreator) (t : List Event) : Prop :=
  ∀ t₁ ibIndex va h t₂, t = t₁ ++ .packet ibIndex va h :: t₂ → h.isCommand = true →
    ∃ s C C' parent, Monitor.run place Emulation.outermost t₁ = some s ∧
      Monitor.run (onEvent kind fields groups) base t₁ = some C ∧
      C.onPacket kind fields groups h = some C' ∧
      C'.sharedChildren = C.sharedChildren ++ [(parent, C.nodes.length)] ∧
      (s.1.opened.length = 1 → parent = some base.curSubmitNodeIndex) ∧
      ∀ r rs, s.2.2 = r :: rs → r.queued.ibType = .kCall →
        ∃ p, parent = some p ∧ CalledBy kind fields groups base t₁ r p

/-- The innermost open IB is one that a called IB has chained to. -/
def ChainedCall (s : Place) : Prop :=
  ∃ o r, s.1.opened.head? = some o ∧ s.2.2.head? = some r ∧ o.queued.ibType = .kChain ∧
    r.queued.ibType = .kCall

/-- No packet is executed at the top level once an IB of the top level has started after an IB
packet, and none in an IB that a called one chains to. -/
def OnTime (t : List Event) : Prop :=
  ∀ t₁ ibIndex va h t₂ s, t = t₁ ++ .packet ibIndex va h :: t₂ → h.isCommand = true →
    Monitor.run place Emulation.outermost t₁ = some s →
      (s.1.opened.length = 1 → ¬ StartedLate t₁) ∧ ¬ ChainedCall s

end Parents

/-! ## The parents of the open IBs -/

variable {kind : ℕ → PacketKind} {fields : ℕ → ℕ} {groups : ℕ → List (ℕ × UInt64)}
  {base C C' : ParentCreator} {n n' : Nesting} {last last' : Option Pm4Header}
  {rs rs' : List OpenIb} {t : List Event} {e : Event}

/-! ## The nodes -/

section Nodes

variable {R R' : RangeCreator}

theorem length_nodes_addEvent {p node : ℕ} (h : R.addEvent p node = some R') :
    R'.nodes.length = R.nodes.length := by
  rw [RangeCreator.addEvent] at h
  split at h
  · cases h
  · cases h
    rfl

theorem length_nodes_addPass {p node : ℕ} (h : R.addPass p node = some R') :
    R'.nodes.length = R.nodes.length := by
  obtain ⟨R₁, hclose, rfl⟩ := Option.map_eq_some_iff.mp h
  rw [RangeCreator.closePass] at hclose
  split at hclose
  · cases hclose
    rfl
  · split at hclose
    · cases hclose
      rfl
    · cases hclose

theorem length_nodes_onPacket {h : Pm4Header} (hcmd : ¬ (h.type ≠ 4 ∧ h.type ≠ 7))
    (hR : R.onPacket kind fields h = some R') :
    R'.nodes.length = R.nodes.length + 1 + RangeCreator.extra kind fields R.nodes.length := by
  have hcommand : h.isCommand = true := by
    rw [Pm4Header.isCommand, Bool.or_eq_true, decide_eq_true_eq, decide_eq_true_eq]
    tauto
  have hadd : (R.addPacket kind fields h).nodes.length =
      R.nodes.length + 1 + RangeCreator.extra kind fields R.nodes.length := by
    rw [RangeCreator.nodes_addPacket hcommand, List.length_append, List.length_cons,
      List.length_replicate]
    omega
  rw [RangeCreator.onPacket, if_neg hcmd] at hR
  obtain ⟨R₁, hR₁, rfl⟩ := Option.map_eq_some_iff.mp hR
  rw [← hadd]
  split at hR₁
  · have hnodes := length_nodes_addEvent hR₁
    exact hnodes
  · have hnodes := length_nodes_addPass hR₁
    exact hnodes
  · cases hR₁
    rfl

theorem nodes_onIbEnd (h : R.onIbEnd = some R') : R'.nodes = R.nodes := by
  obtain ⟨C, hC, rfl⟩ := Option.map_eq_some_iff.mp h
  rw [CommandHierarchyCreator.onIbEnd] at hC
  obtain ⟨popped, -, rfl⟩ := Option.map_eq_some_iff.mp hC
  rfl

end Nodes

theorem startedLate_concat : StartedLate (t ++ [e]) ↔
    StartedLate t ∨ e.startsTop = true ∧ ∃ e' ∈ t, e'.isIbPacket = true := by
  rw [StartedLate, List.pairwise_append, StartedLate]
  simp only [List.pairwise_singleton, List.mem_singleton, forall_eq, true_and]
  rw [not_and_or]
  refine or_congr_right ?_
  cases e.startsTop <;> simp

theorem CalledBy.mono {o : OpenIb} {p : ℕ} (h : CalledBy kind fields groups base t o p)
    (t' : List Event) : CalledBy kind fields groups base (t ++ t') o p := by
  obtain ⟨u, ibIndex, va, hd, ibType, v, n, C, rfl, hrest⟩ := h
  exact ⟨u, ibIndex, va, hd, ibType, v ++ t', n, C, by simp, hrest⟩

theorem isIbPacket_of_isCall {h : Pm4Header} (hh : h.isCall = true) : h.isIbPacket = true := by
  rw [Pm4Header.isIbPacket, ← Pm4Header.isCall, hh]
  rfl

theorem isCommand_of_isIbPacket {h : Pm4Header} (hh : h.isIbPacket = true) :
    h.isCommand = true := by
  simp only [Pm4Header.isIbPacket, Pm4Header.isOpcode, Bool.or_eq_true, Bool.and_eq_true] at hh
  rw [Pm4Header.isCommand, Bool.or_eq_true]
  tauto

/-- Each open IB has the level that its place has. -/
def Leveled : List OpenIb → Prop
  | [] => True
  | o :: os => o.info.ibLevel = os.length + 1 ∧ Leveled os

theorem Leveled.bounds : ∀ {os : List OpenIb}, Leveled os → ∀ o ∈ os,
    0 < o.info.ibLevel ∧ o.info.ibLevel ≤ os.length
  | [], _, o, ho => absurd ho List.not_mem_nil
  | o' :: os, h, o, ho => by
    rw [List.length_cons]
    rcases List.mem_cons.mp ho with rfl | ho
    · have hlevel := h.1
      omega
    · have hle := h.2.bounds o ho
      omega

theorem started_le_of_run (h : Monitor.run (nest true) n t = some n') : n.started ≤ n'.started := by
  refine Monitor.run_invariant (P := fun m => n.started ≤ m.started) le_rfl h fun e _ m m' hm he => ?_
  cases nests_of_nest he with
  | start => exact Nat.le_succ_of_le hm
  | chain => exact Nat.le_succ_of_le hm
  | close => exact hm
  | packet => exact hm

theorem started_ibStart {q : QueuedIb} {ibIndex : ℕ} {info : IndirectBufferInfo} {ibType : IbType}
    (h : nest true n (.ibStart q ibIndex info ibType) = some n') : n.started < n'.started := by
  cases nests_of_nest h with
  | start => exact Nat.lt_succ_self _
  | chain => exact Nat.lt_succ_self _

theorem CalledBy.unique {o : OpenIb} {p p' : ℕ}
    (h : CalledBy kind fields groups base t o p) (h' : CalledBy kind fields groups base t o p') :
    p = p' := by
  -- the later of two calls comes behind the start of the IB
  have hle : ∀ {p p'}, CalledBy kind fields groups base t o p →
      CalledBy kind fields groups base t o p' → ∀ u u', (∃ a v, t = u ++ a :: v ∧
        ∃ m, Monitor.run (nest true) {} (u ++ [a]) = some m ∧ m.started = o.number ∧
          ∃ q ibIndex info ibType v', v = .ibStart q ibIndex info ibType :: v') →
      (∃ a v, t = u' ++ a :: v ∧
        ∃ m, Monitor.run (nest true) {} (u' ++ [a]) = some m ∧ m.started = o.number) →
      u'.length ≤ u.length := by
    rintro - - - - u u' ⟨a, v, hu, m, hm, hnumber, q, ibIndex, info, ibType, v', rfl⟩
      ⟨a', w, hu', m', hm', hnumber'⟩
    by_contra hlt
    have hprefix : u ++ [a, .ibStart q ibIndex info ibType] <+: u' ++ [a'] := by
      have hu₃ : u ++ [a, .ibStart q ibIndex info ibType] <+: t := ⟨v', by rw [hu]; simp⟩
      have hw₃ : u' ++ [a'] <+: t := ⟨w, by rw [hu']; simp⟩
      refine List.prefix_of_prefix_length_le hu₃ hw₃ ?_
      simp only [List.length_append, List.length_cons, List.length_nil]
      omega
    obtain ⟨tail, htail⟩ := hprefix
    rw [← htail, show u ++ [a, .ibStart q ibIndex info ibType] ++ tail =
      u ++ [a] ++ .ibStart q ibIndex info ibType :: tail by simp] at hm'
    obtain ⟨m₁, m₂, hm₁, hstart, hrest⟩ := Monitor.run_split hm'
    obtain rfl : m₁ = m := Option.some.inj (hm₁.symm.trans hm)
    have h1 := started_ibStart hstart
    have h2 := started_le_of_run hrest
    omega
  obtain ⟨u, i, va, hd, ibType, v, m, C, hu, -, hm, hnumber, hC, rfl⟩ := id h
  obtain ⟨u', i', va', hd', ibType', v', m', C', hu', -, hm', hnumber', hC', rfl⟩ := id h'
  have hlen : u.length = u'.length := le_antisymm
    (hle h' h _ _ ⟨_, _, hu', m', hm', hnumber', _, _, _, _, _, rfl⟩ ⟨_, _, hu, m, hm, hnumber⟩)
    (hle h h' _ _ ⟨_, _, hu, m, hm, hnumber, _, _, _, _, _, rfl⟩ ⟨_, _, hu', m', hm', hnumber'⟩)
  obtain rfl : u = u' := (List.append_inj (hu.symm.trans hu') hlen).1
  rw [Option.some.inj (hC.symm.trans hC')]

/-- The parents after some calls of a submit, the last of which is for a packet or not. -/
structure ParentsFollow (kind : ℕ → PacketKind) (fields : ℕ → ℕ)
    (groups : ℕ → List (ℕ × UInt64)) (base C : ParentCreator) (n : Nesting)
    (last : Option Pm4Header) (rs : List OpenIb) (t : List Event) : Prop where
  leveled : Leveled n.opened
  level : n.opened ≠ [] → C.curIbLevel = n.opened.length
  seen : C.curIbPacketNodeIndex ≠ none ↔ ∃ e ∈ t, e.isIbPacket = true
  packet : ∀ p, C.curIbPacketNodeIndex = some p → base.curSubmitNodeIndex < p
  rooted : rs.length = n.opened.length
  last : ∀ h, last = some h → h.isIbPacket = true → ∃ u ibIndex va C₀,
    t = u ++ [.packet ibIndex va h] ∧
      Monitor.run (onEvent kind fields groups) base u = some C₀ ∧
      C.curIbPacketNodeIndex = some C₀.nodes.length ∧ C₀.nodes.length < C.nodes.length ∧
      ∀ x ∈ n.opened.zip rs, x.2.queued.ibType = .kCall →
        ∃ p < C₀.nodes.length, CalledBy kind fields groups base u x.2 p
  callers : ∀ x ∈ n.opened.zip rs, x.2.queued.ibType = .kCall →
    ∃ p p', C.sharedNodeIbParentStack x.1.info.ibLevel = some p' ∧
      CalledBy kind fields groups base t x.2 p ∧ p < C.nodes.length ∧
      (x.1.queued.ibType = .kChain → p < p') ∧ (x.1.queued.ibType ≠ .kChain → p = p')
  top : C.sharedNodeIbParentStack 1 = some base.curSubmitNodeIndex ↔ ¬ StartedLate t

theorem isIbPacket_of_isChain {h : Pm4Header}
    (hh : h.isOpcode CP_INDIRECT_BUFFER_CHAIN = true) : h.isIbPacket = true := by
  rw [Pm4Header.isIbPacket, hh, Bool.or_true]
  rfl

/-- **The start of an IB.** -/
theorem ParentsFollow.start (hC : ParentsFollow kind fields groups base C n last rs t)
    (hnest : Monitor.run (nest true) {} t = some n)
    {q : QueuedIb} {ibIndex : ℕ} {info : IndirectBufferInfo} {ibType : IbType}
    (hn : Nests n (.ibStart q ibIndex info ibType) n')
    (hp : (Event.ibStart q ibIndex info ibType).PassesOn)
    (hs : StartsAt (n, last, rs) (.ibStart q ibIndex info ibType)) :
    ParentsFollow kind fields groups base (C.onIbStart ibIndex info ibType) n' none
      (roots n rs (.ibStart q ibIndex info ibType)) (t ++ [.ibStart q ibIndex info ibType]) := by
  obtain ⟨hlevel, hnormal, hcall, hchain⟩ := hs
  have hgrows : C.nodes.length < (C.onIbStart ibIndex info ibType).nodes.length := by
    show C.nodes.length < (C.nodes ++ _ ++ [_]).length
    simp only [List.length_append, List.length_singleton]
    omega
  -- the new IB, and the IBs that it is inside of
  obtain ⟨os, r, rs', hopen, hroots, hlen, hos, hrooted, hsub⟩ : ∃ os r rs',
      n'.opened = ⟨n.started, q, ibIndex, info⟩ :: os ∧
      roots n rs (.ibStart q ibIndex info ibType) = r :: rs' ∧
      info.ibLevel = os.length + 1 ∧ Leveled os ∧ rs'.length = os.length ∧
      ∀ x ∈ os.zip rs', x ∈ n.opened.zip rs := by
    have hrooted := hC.rooted
    cases hn with
    | start hq hf =>
      rw [if_neg hq] at hlevel
      exact ⟨n.opened, _, rs, rfl, if_neg hq, hlevel, hC.leveled, hrooted, fun _ hx => hx⟩
    | @chain k o os q info ibType hq =>
      rw [if_pos hq] at hlevel
      obtain ⟨r, rs', rfl⟩ := List.exists_cons_of_length_eq_add_one hrooted
      refine ⟨os, r, rs', rfl, if_pos hq, hlevel, hC.leveled.2, Nat.succ.inj hrooted, fun x hx => ?_⟩
      rw [List.zip_cons_cons]
      exact List.mem_cons_of_mem _ hx
  have hstack : ∀ level ≠ info.ibLevel, (C.onIbStart ibIndex info ibType).sharedNodeIbParentStack
      level = C.sharedNodeIbParentStack level := fun level hne => Function.update_of_ne hne _ _
  have hnew : (C.onIbStart ibIndex info ibType).sharedNodeIbParentStack info.ibLevel =
      C.ibPacketParent info ibType (C.sharedNodeIbParentStack info.ibLevel) :=
    Function.update_self _ _ _
  refine ⟨?_, fun _ => ?_, ?_, hC.packet, ?_, nofun, fun x hx hkind => ?_, ?_⟩
  · rw [hopen]
    exact ⟨hlen, hos⟩
  · rw [hopen, List.length_cons]
    exact hlen
  · have hno : (Event.ibStart q ibIndex info ibType).isIbPacket = false := rfl
    simp only [List.mem_append, List.mem_singleton]
    refine hC.seen.trans ⟨fun ⟨e, he, h⟩ => ⟨e, .inl he, h⟩, ?_⟩
    rintro ⟨e, he | rfl, h⟩
    · exact ⟨e, he, h⟩
    · cases h
  · rw [hopen, hroots, List.length_cons, List.length_cons, hrooted]
  · rw [hopen, hroots, List.zip_cons_cons] at hx
    rcases List.mem_cons.mp hx with rfl | hx
    · have hparent : ∀ p', ibType = .kCall → C.curIbPacketNodeIndex = some p' →
          (C.onIbStart ibIndex info ibType).sharedNodeIbParentStack info.ibLevel = some p' := by
        intro p' htype hcur
        rw [hnew, ibPacketParent, htype, hcur]
        rfl
      by_cases hq : q.ibType = .kChain
      · -- the chain packet is behind the packet of the call
        obtain ⟨⟨h, hlast, hh⟩, htype⟩ := hchain hq
        obtain ⟨u, ibIndex', va, C₀, rfl, hrun, hcur, hnodes, hcallers⟩ :=
          hC.last h hlast (isIbPacket_of_isChain hh)
        obtain ⟨o, ho⟩ : ∃ o, (o, r) ∈ n.opened.zip rs := by
          have hroots' : rs = r :: rs' := (if_pos hq).symm.trans hroots
          cases hn with
          | start hq' _ => exact absurd hq hq'
          | @chain k o os' q info ibType _ =>
            exact ⟨o, by rw [hroots', List.zip_cons_cons]; exact List.mem_cons_self⟩
        obtain ⟨p, hlt, hby⟩ := hcallers _ ho hkind
        refine ⟨p, C₀.nodes.length, hparent _ (htype r rs' ?_ hkind) hcur, ?_, ?_, fun _ => hlt,
          fun hne => absurd hq hne⟩
        · exact (if_pos hq).symm.trans hroots
        · rw [List.append_assoc]
          exact hby.mono _
        · omega
      · -- the call comes right after its packet
        obtain rfl : ⟨n.started, q, ibIndex, info⟩ = r :=
          (List.cons.inj ((if_neg hq).symm.trans hroots)).1
        obtain ⟨h, hlast, hh⟩ := hcall hkind
        obtain ⟨u, ibIndex', va, C₀, rfl, hrun, hcur, hnodes, -⟩ :=
          hC.last h hlast (isIbPacket_of_isCall hh)
        have htype : ibType = .kCall := by
          rw [hp.2.1 (by rw [hkind]; nofun), hkind]
        refine ⟨C₀.nodes.length, C₀.nodes.length, hparent _ htype hcur,
          ⟨u, ibIndex', va, h, ibType, [], n, C₀, by simp, hh, hnest, rfl, hrun, rfl⟩, ?_,
          fun hc => absurd hc hq, fun _ => rfl⟩
        omega
    · obtain ⟨p, p', hparent, hby, hlt, hrest⟩ := hC.callers x (hsub x hx) hkind
      have hle := (hos.bounds x.1 (List.of_mem_zip hx).1).2
      refine ⟨p, p', ?_, hby.mono _, hlt.trans hgrows, hrest⟩
      rw [hstack _ (by omega), hparent]
  · rw [startedLate_concat]
    by_cases htop : info.ibLevel = 1
    · have hstart : (Event.ibStart q ibIndex info ibType).startsTop = true := decide_eq_true htop
      rw [htop] at hnew
      rw [hstart, hnew, ibPacketParent, hnormal htop, if_neg nofun, if_neg (by simp)]
      cases hcur : C.curIbPacketNodeIndex with
      | none =>
        have hseen := hC.seen.not.mp (by rw [hcur]; simp)
        rw [and_iff_right rfl, or_iff_left hseen]
        exact hC.top
      | some p =>
        have hseen := hC.seen.mp (by rw [hcur]; nofun)
        have hlt := hC.packet p hcur
        refine iff_of_false (fun heq => ?_) fun hno => hno (.inr ⟨rfl, hseen⟩)
        exact hlt.ne' (Option.some.inj heq)
    · have hstart : (Event.ibStart q ibIndex info ibType).startsTop = false := decide_eq_false htop
      rw [hstack 1 (Ne.symm htop), hC.top, hstart]
      simp

theorem ParentsFollow.keep (hC : ParentsFollow kind fields groups base C n last rs t) (e : Event)
    (hpacket : e.isIbPacket = false) (htop : e.startsTop = false)
    (hcur : C'.curIbPacketNodeIndex = C.curIbPacketNodeIndex)
    (hstack : C'.sharedNodeIbParentStack = C.sharedNodeIbParentStack)
    (hnodes : C.nodes.length ≤ C'.nodes.length) (hrooted : rs'.length = n'.opened.length)
    (hsub : ∀ x ∈ n'.opened.zip rs', x ∈ n.opened.zip rs) (hleveled : Leveled n'.opened)
    (hlevel : n'.opened ≠ [] → C'.curIbLevel = n'.opened.length)
    (hlast : ∀ h, e.header = some h → h.isIbPacket = false) :
    ParentsFollow kind fields groups base C' n' e.header rs' (t ++ [e]) := by
  refine ⟨hleveled, hlevel, ?_, fun p hp => hC.packet p (hcur ▸ hp), hrooted, fun h hh hib => ?_,
    fun x hx hkind => ?_, ?_⟩
  · rw [hcur, hC.seen]
    simp [hpacket]
  · rw [hlast h hh] at hib
    cases hib
  · obtain ⟨p, p', hparent, hby, hlt, hrest⟩ := hC.callers x (hsub x hx) hkind
    exact ⟨p, p', by rw [hstack, hparent], hby.mono _, hlt.trans_le hnodes, hrest⟩
  · rw [hstack, hC.top, startedLate_concat, htop]
    simp

/-- **The end of an IB.** -/
theorem ParentsFollow.close (hC : ParentsFollow kind fields groups base C n last rs t) {ibIndex : ℕ}
    {info : IndirectBufferInfo} (hn : Nests n (.ibEnd ibIndex info) n')
    (hend : C.onIbEnd info = some C') :
    ParentsFollow kind fields groups base C' n' none rs.tail (t ++ [.ibEnd ibIndex info]) := by
  obtain ⟨R, hR, rfl⟩ := Option.map_eq_some_iff.mp hend
  have hnodes : C.nodes.length ≤ R.nodes.length := (congrArg List.length (nodes_onIbEnd hR)).ge
  have hrooted := hC.rooted
  cases hn with
  | @close k o os fresh ibIndex info ho =>
    have hleveled : Leveled (o :: os) := hC.leveled
    have hlevel : info.ibLevel = os.length :=
      Nat.succ.inj (ho.2.2.2.2.symm.trans hleveled.1)
    obtain ⟨r, rs', rfl⟩ := List.exists_cons_of_length_eq_add_one hrooted
    have hsub : ∀ x ∈ os.zip rs', x ∈ (o :: os).zip (r :: rs') := fun x hx => by
      rw [List.zip_cons_cons]
      exact List.mem_cons_of_mem _ hx
    exact hC.keep (.ibEnd ibIndex info) rfl rfl rfl rfl hnodes (Nat.succ.inj hrooted) hsub
      hleveled.2 (fun _ => hlevel) (fun _ h => nomatch h)

/-- **A packet.** -/
theorem ParentsFollow.command (hC : ParentsFollow kind fields groups base C n last rs t)
    (hrun : Monitor.run (onEvent kind fields groups) base t = some C)
    (hlt : base.curSubmitNodeIndex < C.nodes.length) {ibIndex : ℕ} {va : UInt64} {h : Pm4Header}
    (hn : Nests n (.packet ibIndex va h) n') (hpacket : C.onPacket kind fields groups h = some C') :
    ParentsFollow kind fields groups base C' n' (some h) rs (t ++ [.packet ibIndex va h]) := by
  have hopen : n'.opened = n.opened := by
    cases hn
    rfl
  have hleveled : Leveled n'.opened := hopen ▸ hC.leveled
  have hrooted : rs.length = n'.opened.length := hopen ▸ hC.rooted
  have hsub : ∀ x ∈ n'.opened.zip rs, x ∈ n.opened.zip rs := fun x hx => hopen ▸ hx
  have hlevel : n'.opened ≠ [] → C.curIbLevel = n'.opened.length := by
    rw [hopen]
    exact hC.level
  rw [onPacket] at hpacket
  by_cases hcmd : h.type ≠ 4 ∧ h.type ≠ 7
  · rw [if_pos hcmd] at hpacket
    cases hpacket
    have hno : h.isIbPacket = false := by
      rw [← Bool.not_eq_true]
      intro hib
      have := isCommand_of_isIbPacket hib
      simp [Pm4Header.isCommand, hcmd] at this
    exact hC.keep (.packet ibIndex va h) hno rfl rfl rfl le_rfl hrooted hsub hleveled hlevel
      fun h' hh => Option.some.inj hh ▸ hno
  · rw [if_neg hcmd] at hpacket
    obtain ⟨R, hR, rfl⟩ := Option.map_eq_some_iff.mp hpacket
    have hnodes : C.nodes.length < R.nodes.length := by
      rw [length_nodes_onPacket hcmd hR]
      omega
    cases hib : h.isIbPacket with
    | false =>
      exact hC.keep (.packet ibIndex va h) hib rfl rfl rfl hnodes.le hrooted hsub hleveled hlevel
        fun h' hh => Option.some.inj hh ▸ hib
    | true =>
      have htop : (Event.packet ibIndex va h).startsTop = false := rfl
      refine ⟨hleveled, hlevel, ?_, fun p hp => ?_, hrooted, fun h' hh _ => ?_,
        fun x hx hkind => ?_, ?_⟩
      · exact iff_of_true (fun hnone => by cases hnone)
          ⟨_, List.mem_append_right _ (List.mem_singleton_self _), hib⟩
      · cases hp
        exact hlt
      · cases hh
        refine ⟨t, ibIndex, va, C, rfl, hrun, rfl, hnodes, fun x hx hkind => ?_⟩
        obtain ⟨p, -, -, hby, hp, -⟩ := hC.callers x (hsub x hx) hkind
        exact ⟨p, hp, hby⟩
      · obtain ⟨p, p', hparent, hby, hp, hrest⟩ := hC.callers x (hsub x hx) hkind
        exact ⟨p, p', hparent, hby.mono _, hp.trans hnodes, hrest⟩
      · rw [startedLate_concat, htop]
        refine hC.top.trans ?_
        simp

/-! ## A submit -/

theorem toRangeCreator_onEvent {R : RangeCreator}
    (h : C.toRangeCreator.onEvent kind fields e = some R) :
    ∃ C', C.onEvent kind fields groups e = some C' ∧ C'.toRangeCreator = R := by
  cases e with
  | ibStart q ibIndex info ibType => exact ⟨_, rfl, Option.some.inj h⟩
  | ibEnd ibIndex info =>
    have hend : C.toRangeCreator.onIbEnd = some R := h
    refine ⟨{ C with toRangeCreator := R, curIbLevel := info.ibLevel }, ?_, rfl⟩
    rw [onEvent, onIbEnd, hend]
    rfl
  | packet ibIndex va h' =>
    have hpacket : C.toRangeCreator.onPacket kind fields h' = some R := h
    rw [onEvent, onPacket]
    by_cases hcmd : h'.type ≠ 4 ∧ h'.type ≠ 7
    · rw [RangeCreator.onPacket, if_pos hcmd] at hpacket
      rw [if_pos hcmd]
      exact ⟨C, rfl, Option.some.inj hpacket⟩
    · rw [if_neg hcmd, hpacket]
      exact ⟨_, rfl, rfl⟩

theorem toRangeCreator_run {R : RangeCreator}
    (h : Monitor.run (RangeCreator.onEvent kind fields) base.toRangeCreator t = some R) :
    ∃ C, Monitor.run (onEvent kind fields groups) base t = some C ∧ C.toRangeCreator = R :=
  Monitor.run_simulation (R := fun R (C : ParentCreator) => C.toRangeCreator = R) rfl h
    fun _ _ _ _ _ hR hstep => toRangeCreator_onEvent (hR ▸ hstep)

theorem toRangeCreator_onSubmit {submits : List RangeCreator.SubmitTrace} {R : RangeCreator}
    (h : Monitor.run (RangeCreator.onSubmit kind fields) base.toRangeCreator submits = some R) :
    ∃ C, Monitor.run (onSubmit kind fields groups) base submits = some C ∧
      C.toRangeCreator = R := by
  refine Monitor.run_simulation (R := fun R (C : ParentCreator) => C.toRangeCreator = R) rfl h ?_
  rintro s - R₁ R₂ C₁ rfl hstep
  obtain ⟨R₃, hrun, rfl⟩ := Option.map_eq_some_iff.mp hstep
  obtain ⟨C₃, hrun', rfl⟩ := @toRangeCreator_run kind fields groups
    (C₁.onSubmitStart s.submitIndex) s.trace R₃ hrun
  refine ⟨{ C₃ with toRangeCreator := C₃.toRangeCreator.onSubmitEnd s.presents }, ?_, rfl⟩
  rw [onSubmit, hrun']
  rfl

theorem nest_of_place {s s' : Place} (h : Monitor.run place s t = some s') :
    Monitor.run (nest true) s.1 t = some s'.1 := by
  have hstep : ∀ e ∈ t, ∀ (s₁ s₂ : Place) n₁, s₁.1 = n₁ → place s₁ e = some s₂ →
      ∃ n₂, nest true n₁ e = some n₂ ∧ s₂.1 = n₂ := by
    rintro e - s₁ s₂ n₁ rfl hs
    obtain ⟨n₂, hn₂, rfl⟩ := Option.map_eq_some_iff.mp hs
    exact ⟨n₂, hn₂, rfl⟩
  obtain ⟨n, hn, rfl⟩ :=
    Monitor.run_simulation (R := fun (s : Place) n => s.1 = n) rfl h hstep
  exact hn

theorem place_run (h : Monitor.run (nest true) n t = some n') (last : Option Pm4Header)
    (rs : List OpenIb) : ∃ s : Place, Monitor.run place (n, last, rs) t = some s ∧ s.1 = n' := by
  have hstep : ∀ e ∈ t, ∀ n₁ n₂ (s₁ : Place), s₁.1 = n₁ → nest true n₁ e = some n₂ →
      ∃ s₂, place s₁ e = some s₂ ∧ s₂.1 = n₂ := by
    rintro e - n₁ n₂ ⟨m, last₁, rs₁⟩ rfl hn
    exact ⟨_, Emulation.place_of_nest hn last₁ rs₁, rfl⟩
  have hbase : ((n, last, rs) : Place).1 = n := rfl
  exact Monitor.run_simulation (R := fun n (s : Place) => s.1 = n) hbase h hstep

/-- The creator after some calls of a submit. -/
structure SharedFollow (kind : ℕ → PacketKind) (fields : ℕ → ℕ) (groups : ℕ → List (ℕ × UInt64))
    (base C : ParentCreator) (s : Place) (t : List Event) : Prop where
  run : Monitor.run (onEvent kind fields groups) base t = some C
  rangeRun : Monitor.run (RangeCreator.onEvent kind fields) base.toRangeCreator t =
    some C.toRangeCreator
  ranges : RangeCreator.RangesFollow kind fields base.toRangeCreator C.toRangeCreator s.1 t
  parents : ParentsFollow kind fields groups base C s.1 s.2.1 s.2.2 t

/-- **One call.** -/
theorem SharedFollow.step {s s' : Place} (hC : SharedFollow kind fields groups base C s t)
    (hnest : Monitor.run (nest true) {} t = some s.1) (hstep : place s e = some s')
    (hp : e.PassesOn) (hs : StartsAt s e) :
    ∃ C', SharedFollow kind fields groups base C' s' (t ++ [e]) := by
  obtain ⟨n', hn', rfl⟩ := Option.map_eq_some_iff.mp hstep
  have hn := nests_of_nest hn'
  obtain ⟨R, hR, hranges⟩ := hC.ranges.step hC.rangeRun hnest hn hp
  obtain ⟨C', hC', rfl⟩ := @toRangeCreator_onEvent kind fields groups C e R hR
  refine ⟨C', (Monitor.run_append_of hC.run).trans (Monitor.run_cons_of hC'),
    (Monitor.run_append_of hC.rangeRun).trans (Monitor.run_cons_of hR), hranges, ?_⟩
  cases e with
  | ibStart q ibIndex info ibType =>
    obtain rfl := Option.some.inj hC'
    exact hC.parents.start hnest hn hp hs
  | ibEnd ibIndex info => exact hC.parents.close hn hC'
  | packet ibIndex va h =>
    refine hC.parents.command hC.run ?_ hn hC'
    have hlt := hC.ranges.events.submit
    rw [hC.ranges.ibStacks.submit] at hlt
    exact hlt

theorem sharedFollow_run (hbase : SharedFollow kind fields groups base base Emulation.outermost [])
    {s : Place} : Monitor.run place Emulation.outermost t = some s → (∀ e ∈ t, e.PassesOn) →
      Monitor.Meets place StartsAt Emulation.outermost t →
        ∃ C, SharedFollow kind fields groups base C s t := by
  induction t using List.reverseRecOn generalizing s with
  | nil =>
    intro hs _ _
    cases hs
    exact ⟨base, hbase⟩
  | append_singleton t e ih =>
    intro hs hp hmeets
    obtain ⟨s₁, s₂, hs₁, hstep, hs₂⟩ := Monitor.run_split hs
    cases hs₂
    rw [Monitor.meets_append hs₁] at hmeets
    obtain ⟨C, hC⟩ := ih hs₁ (fun e' he' => hp e' (List.mem_append_left _ he')) hmeets.1
    exact hC.step (nest_of_place hs₁) hstep
      (hp e (List.mem_append_right _ (List.mem_singleton_self e))) hmeets.2.1

theorem sharedFollow_onSubmitStart (hC : C.toRangeCreator.Unwritten) (submitIndex : ℕ) :
    SharedFollow kind fields groups (C.onSubmitStart submitIndex) (C.onSubmitStart submitIndex)
      Emulation.outermost [] where
  run := rfl
  rangeRun := rfl
  ranges := RangeCreator.rangesFollow_onSubmitStart hC submitIndex
  parents := by
    have hnone : (C.onSubmitStart submitIndex).curIbPacketNodeIndex = none := rfl
    refine ⟨trivial, fun hne => absurd rfl hne, ?_, fun p hp => ?_, rfl, fun h hlast => ?_,
      fun x hx => absurd hx List.not_mem_nil, ?_⟩
    · rw [hnone]
      exact iff_of_false (fun hne => hne rfl) fun ⟨_, he, _⟩ => absurd he List.not_mem_nil
    · cases hnone.symm.trans hp
    · cases hlast
    · refine iff_of_true ?_ (not_not.mpr List.Pairwise.nil)
      show update C.sharedNodeIbParentStack 1 (some C.nodes.length) 1 = some C.nodes.length
      rw [Function.update_self]

theorem sharedChildren_onPacket {h : Pm4Header} (hh : h.isCommand = true)
    (hpacket : C.onPacket kind fields groups h = some C') : C'.sharedChildren =
      C.sharedChildren ++ [(C.sharedNodeIbParentStack C.curIbLevel, C.nodes.length)] := by
  have hcmd : ¬ (h.type ≠ 4 ∧ h.type ≠ 7) := by
    simp only [Pm4Header.isCommand, Bool.or_eq_true, decide_eq_true_eq] at hh
    tauto
  rw [onPacket, if_neg hcmd] at hpacket
  obtain ⟨R, -, rfl⟩ := Option.map_eq_some_iff.mp hpacket
  rfl

/-- **A submit**: its parents are right exactly when its packets are on time. -/
theorem parentsRight_iff (hbase : SharedFollow kind fields groups base base Emulation.outermost [])
    {s : Place} (hs : Monitor.run place Emulation.outermost t = some s) (hp : ∀ e ∈ t, e.PassesOn)
    (hmeets : Monitor.Meets place StartsAt Emulation.outermost t) :
    ParentsRight kind fields groups base t ↔ OnTime t := by
  -- the creator before each packet
  have hbefore : ∀ {t₁ t₂ ibIndex va h}, t = t₁ ++ .packet ibIndex va h :: t₂ →
      ∃ s₁ C₁ C₂ o os r rs, Monitor.run place Emulation.outermost t₁ = some s₁ ∧
        SharedFollow kind fields groups base C₁ s₁ t₁ ∧
        C₁.onPacket kind fields groups h = some C₂ ∧ s₁.1.opened = o :: os ∧
        s₁.2.2 = r :: rs := by
    rintro t₁ t₂ ibIndex va h rfl
    obtain ⟨s₁, s₂, hs₁, hstep, -⟩ := Monitor.run_split hs
    rw [Monitor.meets_append hs₁] at hmeets
    obtain ⟨C₁, hC₁⟩ := sharedFollow_run hbase hs₁
      (fun e he => hp e (List.mem_append_left _ he)) hmeets.1
    obtain ⟨C₂, hC₂⟩ := hC₁.step (nest_of_place hs₁) hstep
      (hp _ (List.mem_append_right _ List.mem_cons_self)) hmeets.2.1
    obtain ⟨C₃, C₄, hC₃, hpacket, hC₄⟩ := Monitor.run_split hC₂.run
    obtain rfl : C₃ = C₁ := Option.some.inj (hC₃.symm.trans hC₁.run)
    obtain ⟨n', hn', rfl⟩ := Option.map_eq_some_iff.mp hstep
    cases hs₁' : s₁.1.opened with
    | nil =>
      have hn := nests_of_nest hn'
      generalize s₁.1 = n at hn hs₁'
      cases hn
      cases hs₁'
    | cons o os =>
      have hrooted := hC₁.parents.rooted
      rw [hs₁'] at hrooted
      obtain ⟨r, rs, hr⟩ := List.exists_cons_of_length_eq_add_one hrooted
      exact ⟨s₁, C₃, C₄, o, os, r, rs, hs₁, hC₁, hpacket, hs₁', hr⟩
  constructor
  · intro hright t₁ ibIndex va h t₂ s₀ ht hh hs₀
    obtain ⟨s₁, C₁, C₂, o, os, r, rs, hs₁, hC₁, hpacket, hopen, hroots⟩ := hbefore ht
    obtain rfl : s₀ = s₁ := Option.some.inj (hs₀.symm.trans hs₁)
    obtain ⟨s', C, C', parent, hs', hrun, hpacket', hadd, htop, hcall⟩ :=
      hright t₁ ibIndex va h t₂ ht hh
    obtain rfl : s' = s₀ := Option.some.inj (hs'.symm.trans hs₀)
    obtain rfl : C = C₁ := Option.some.inj (hrun.symm.trans hC₁.run)
    obtain rfl : C' = C₂ := Option.some.inj (hpacket'.symm.trans hpacket)
    rw [sharedChildren_onPacket hh hpacket, List.append_cancel_left_eq, List.cons.injEq,
      Prod.mk.injEq] at hadd
    have hlevel := hC₁.parents.level (by rw [hopen]; nofun)
    refine ⟨fun hlen hlate => hC₁.parents.top.mp ?_ hlate, ?_⟩
    · rw [← htop hlen, ← hadd.1.1, hlevel, hlen]
    · -- the packet of the call comes before the one that chains
      rintro ⟨o', r', ho', hr', hchain, hkind⟩
      rw [hopen, List.head?_cons, Option.some.injEq] at ho'
      rw [hroots, List.head?_cons, Option.some.injEq] at hr'
      subst ho' hr'
      have hleveled := hC₁.parents.leveled
      rw [hopen] at hleveled
      obtain ⟨p, p', hparent, hby, -, hlt, -⟩ := hC₁.parents.callers (o, r)
        (by rw [hopen, hroots]; exact List.mem_cons_self) hkind
      obtain ⟨p'', hparent', hby'⟩ := hcall r rs hroots hkind
      rw [← hadd.1.1, hlevel, hopen, List.length_cons, ← hleveled.1, hparent] at hparent'
      obtain rfl := Option.some.inj hparent'
      exact (hlt hchain).ne (hby.unique hby')
  · intro htime t₁ ibIndex va h t₂ ht hh
    obtain ⟨s₁, C₁, C₂, o, os, r, rs, hs₁, hC₁, hpacket, hopen, hroots⟩ := hbefore ht
    have hlevel := hC₁.parents.level (by rw [hopen]; nofun)
    obtain ⟨hlate, hchained⟩ := htime t₁ ibIndex va h t₂ _ ht hh hs₁
    refine ⟨s₁, C₁, C₂, _, hs₁, hC₁.run, hpacket, sharedChildren_onPacket hh hpacket,
      fun hlen => ?_, fun r' rs' hroots' hkind => ?_⟩
    · rw [hlevel, hlen]
      exact hC₁.parents.top.mpr (hlate hlen)
    · obtain ⟨rfl, rfl⟩ := List.cons.inj (hroots.symm.trans hroots')
      have hleveled := hC₁.parents.leveled
      rw [hopen] at hleveled
      obtain ⟨p, p', hparent, hby, -, -, heq⟩ := hC₁.parents.callers (o, r)
        (by rw [hopen, hroots]; exact List.mem_cons_self) hkind
      obtain rfl : p = p' := heq fun hchain =>
        hchained ⟨o, r, by rw [hopen]; rfl, by rw [hroots]; rfl, hchain, hkind⟩
      refine ⟨p, ?_, hby⟩
      rw [hlevel, hopen, List.length_cons, ← hleveled.1, hparent]

/-! ## The submits of a capture -/

/-- **The shared parents of a submit.** After any submits of a capture and whatever the packets are,
the packets of an accepted submit that are executed at the top level are below the submit, and those
of a called IB, and of the IBs that it chains to, below the packet that calls it, exactly when no
packet is executed at the top level once an IB of the top level has started after an IB packet of
the submit, and none in an IB that a called one chains to. -/
theorem capture_parentsRight_iff (kind : ℕ → PacketKind) (fields : ℕ → ℕ)
    (groups : ℕ → List (ℕ × UInt64)) (submits : List RangeCreator.SubmitTrace)
    (hsubmits : ∀ s ∈ submits, s.Accepted) {E : Emulation} {ibs : List IndirectBufferInfo}
    {t : List Event} (h : E.Succeeds ibs t) (submitIndex : ℕ) :
    ∃ C, Monitor.run (onSubmit kind fields groups) {} submits = some C ∧
      (ParentsRight kind fields groups (C.onSubmitStart submitIndex) t ↔ OnTime t) := by
  obtain ⟨R, hR, hunwritten, -⟩ := @RangeCreator.exists_ready kind fields {} submits
    (fun _ _ => ⟨rfl, rfl⟩) (fun p hp => absurd hp List.not_mem_nil) hsubmits
  obtain ⟨C, hC, rfl⟩ := @toRangeCreator_onSubmit kind fields groups {} submits R hR
  have haccepted : RangeCreator.SubmitTrace.Accepted ⟨submitIndex, t, 0⟩ := .inr ⟨E, ibs, h⟩
  obtain ⟨⟨n, hn, -⟩, hp⟩ := haccepted.closes
  obtain ⟨s, hs, -⟩ := place_run hn none []
  exact ⟨C, hC, parentsRight_iff (sharedFollow_onSubmitStart hunwritten submitIndex) hs hp
    (Emulation.startsAt_of_succeeds h)⟩

theorem not_chainedCall {s : Place} (hs : Monitor.run place Emulation.outermost t = some s)
    (h : ∀ q ibIndex info ibType, .ibStart q ibIndex info ibType ∈ t → q.ibType ≠ .kChain) :
    ¬ ChainedCall s := by
  rintro ⟨o, r, ho, -, hchain, -⟩
  have hopen : ∀ o ∈ s.1.opened, o.queued.ibType ≠ .kChain := by
    refine Monitor.run_invariant (P := fun s : Place => ∀ o ∈ s.1.opened, o.queued.ibType ≠ .kChain)
      (fun o ho => absurd ho List.not_mem_nil) hs fun e he s₁ s₂ hs₁ hstep => ?_
    obtain ⟨n', hn', rfl⟩ := Option.map_eq_some_iff.mp hstep
    have hn := nests_of_nest hn'
    generalize s₁.1 = n at hs₁ hn
    cases hn with
    | start hq => exact List.forall_mem_cons.mpr ⟨h _ _ _ _ he, hs₁⟩
    | chain hq => exact absurd hq (h _ _ _ _ he)
    | close => exact (List.forall_mem_cons.mp hs₁).2
    | packet => exact hs₁
  exact hopen o (List.mem_of_mem_head? ho) hchain

theorem onTime_callTrace : OnTime Emulation.callTrace := by
  intro t₁ ibIndex va h t₂ s ht _ hs
  have hall : Emulation.callTrace.Pairwise
      fun e e' => e.isIbPacket = true → e'.startsTop = false := by decide
  rw [ht] at hall
  refine ⟨fun _ hlate => hlate (hall.sublist (List.sublist_append_left _ _)),
    not_chainedCall hs fun q ibIndex info ibType hq => ?_⟩
  have hq' : .ibStart q ibIndex info ibType ∈ Emulation.callTrace :=
    ht ▸ List.mem_append_left _ hq
  simp only [Emulation.callTrace, List.mem_cons, List.not_mem_nil, or_false, reduceCtorEq,
    false_or, Event.ibStart.injEq] at hq'
  rcases hq' with ⟨rfl, -⟩ | ⟨rfl, -⟩ <;> nofun

/-- After a submit with a draw, one with a called IB. -/
theorem parentsRight_callTrace : ∃ C, Monitor.run (onSubmit RangeCreator.drawKind (fun _ => 0)
    fun _ => []) {} [⟨0, RangeCreator.drawTrace, 0⟩] = some C ∧
      ParentsRight RangeCreator.drawKind (fun _ => 0) (fun _ => []) (C.onSubmitStart 1)
        Emulation.callTrace := by
  obtain ⟨C, hC, hiff⟩ := capture_parentsRight_iff RangeCreator.drawKind (fun _ => 0) (fun _ => [])
    [⟨0, RangeCreator.drawTrace, 0⟩]
    (List.forall_mem_singleton.mpr (.inr ⟨_, _, RangeCreator.drawTrace_succeeds⟩))
    Emulation.callTrace_succeeds 1
  exact ⟨C, hC, hiff.mpr onTime_callTrace⟩

/-! ### An IB after a call -/

/-- Two IBs, the first of which calls another one. -/
def callFirst : Emulation := Emulation.accepting [
  .ofDwords 0x1000 [0x70bf8003, 0x3000, 0, 1], .ofDwords 0x2000 [0x70108000],
  .ofDwords 0x3000 [0x70108000]]

def callFirstIbs : List IndirectBufferInfo :=
  [{ vaAddr := 0x1000, sizeInDwords := 4 }, { vaAddr := 0x2000, sizeInDwords := 1 }]

def callFirstTrace : List Event := [
  .ibStart ⟨.kNormal, 0x1000, 4, false, 7⟩ 0 ⟨0x1000, 4, 1, 7, false⟩ .kNormal,
  .packet 0 0x1000 ⟨0x70bf8003⟩,
  .ibStart ⟨.kCall, 0x3000, 1, false, 7⟩ 0 ⟨0x3000, 1, 2, 7, false⟩ .kCall,
  .packet 0 0x3000 ⟨0x70108000⟩,
  .ibEnd 0 ⟨0x3000, 1, 1, 0, false⟩,
  .ibEnd 0 ⟨0x1000, 4, 0, 0, false⟩,
  .ibStart ⟨.kNormal, 0x2000, 1, false, 7⟩ 1 ⟨0x2000, 1, 1, 7, false⟩ .kNormal,
  .packet 1 0x2000 ⟨0x70108000⟩,
  .ibEnd 1 ⟨0x2000, 1, 0, 0, false⟩]

theorem callFirst_succeeds : callFirst.Succeeds callFirstIbs callFirstTrace :=
  Emulation.succeeds_of_successTrace (n := 11) (by rfl)

/-- **The packet of the second IB** (node 7) becomes a shared child of the packet of the first one
that calls an IB (node 3), and not of the submit (node 1). -/
theorem callFirst_parents : callFirst.Succeeds callFirstIbs callFirstTrace ∧
    (∃ C, Monitor.run (onEvent (fun _ => .other) (fun _ => 0) fun _ => []) (onSubmitStart {} 0)
      callFirstTrace = some C ∧ C.sharedChildren = [(some 1, 3), (some 3, 5), (some 3, 7)]) ∧
    ¬ ParentsRight (fun _ => .other) (fun _ => 0) (fun _ => []) (onSubmitStart {} 0)
      callFirstTrace := by
  have hshared : (Monitor.run (onEvent (fun _ => .other) (fun _ => 0) fun _ => [])
      (onSubmitStart {} 0) callFirstTrace).map ParentCreator.sharedChildren =
        some [(some 1, 3), (some 3, 5), (some 3, 7)] := by rfl
  refine ⟨callFirst_succeeds, Option.map_eq_some_iff.mp hshared, fun hright => ?_⟩
  -- the second IB is open alone, and the packets of its level are below node 3
  have hopen : (Monitor.run place Emulation.outermost (callFirstTrace.take 7)).map
      (fun s => s.1.opened.length) = some 1 := by rfl
  have hparent : (Monitor.run (onEvent (fun _ => .other) (fun _ => 0) fun _ => [])
      (onSubmitStart {} 0) (callFirstTrace.take 7)).map
        (fun C => C.sharedNodeIbParentStack C.curIbLevel) = some (some 3) := by rfl
  obtain ⟨s, C, C', parent, hs, hC, hC', hadd, htop, -⟩ := hright (callFirstTrace.take 7) 1 0x2000
    ⟨0x70108000⟩ (callFirstTrace.drop 8) rfl (by decide)
  rw [hs, Option.map_some, Option.some.injEq] at hopen
  rw [hC, Option.map_some, Option.some.injEq] at hparent
  rw [sharedChildren_onPacket (by decide) hC', hparent, htop hopen] at hadd
  cases List.append_cancel_left hadd

end ParentCreator

end Dive
