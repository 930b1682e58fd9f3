import Dive.Hierarchy.Creator

/-!
# The ranges of the hierarchy

* `RangeCreator`: `CommandHierarchyCreator` with the ranges of its event, render-marker and IB
  nodes, the start nodes of both topologies and the current render marker.
* `EventOwns`, `PassOwns`, `IbOwns`: the packets that are executed while a node is open.
* `NodesRight`: the nodes of a submit select these packets, and what is read of them is written;
  `RangesRight`: that of the submit node as well.
* `EventsFollow`: the events and passes of the submit so far; **`EventsFollow.packet`**.
-/

namespace Dive

/-- What `OnPacket` does with a packet. -/
inductive PacketKind
  /-- `IsEvent` holds of it. -/
  | event
  /-- A marker that starts a pass. -/
  | pass
  | other
  deriving DecidableEq

/-- The first and the last shared child of a node and the node that they are below. An element that
`resize` adds and nothing sets is `none`. -/
structure SharedRange where
  start : Option ℕ := none
  stop : Option ℕ := none
  root : Option ℕ := none
  deriving DecidableEq

/-- All of the range is set. -/
def SharedRange.Written (r : SharedRange) : Prop :=
  r.start.isSome ∧ r.stop.isSome ∧ r.root.isSome

/-- `CommandHierarchyCreator` with its ranges. `startNodeStack` belongs to the submit topology, and
the stacks have their back first. -/
structure RangeCreator extends CommandHierarchyCreator where
  eventStartNodeStack : List ℕ := []
  newEventStart : Bool := true
  renderMarkerIndex : Option ℕ := none
  lastAddedNodeIndex : ℕ := 0
  submitRanges : ℕ → SharedRange := fun _ => {}
  eventRanges : ℕ → SharedRange := fun _ => {}

namespace RangeCreator

open Function (update)

section Calls

/- `kind` says what a packet is and `fields` how many nodes come between it and its event or render
marker, by the index of its node. -/
variable (kind : ℕ → PacketKind) (fields : ℕ → ℕ) (C : RangeCreator)

/-- The number of nodes after a packet node. -/
def extra (packetNodeIndex : ℕ) : ℕ :=
  fields packetNodeIndex + if kind packetNodeIndex = .other then 0 else 1

/-- The event or render-marker node of a packet. -/
def nodeOf (packetNodeIndex : ℕ) : ℕ := packetNodeIndex + fields packetNodeIndex + 1

/-- `OnSubmitStart`. -/
def onSubmitStart (submitIndex : ℕ) : RangeCreator :=
  { C with
    toCommandHierarchyCreator := C.toCommandHierarchyCreator.onSubmitStart submitIndex
    eventStartNodeStack := []
    newEventStart := true
    renderMarkerIndex := none
    submitRanges := update C.submitRanges C.nodes.length { root := some C.nodes.length }
    eventRanges := update C.eventRanges C.nodes.length { root := some C.nodes.length } }

/-- `OnIbStart`. -/
def onIbStart (ibIndex : ℕ) (info : IndirectBufferInfo) (ibType : IbType) : RangeCreator :=
  { C with
    toCommandHierarchyCreator := C.toCommandHierarchyCreator.onIbStart ibIndex info ibType }

/-- `OnIbEnd`. -/
def onIbEnd : Option RangeCreator :=
  C.toCommandHierarchyCreator.onIbEnd.map fun C' =>
    { C with
      toCommandHierarchyCreator := C'
      submitRanges :=
        match C.newIbStart, C.ibStack, C.startNodeStack with
        | false, node :: _, start :: _ => update C.submitRanges node
          ⟨some start, some C.lastAddedNodeIndex, some C.curSubmitNodeIndex⟩
        | _, _, _ => C.submitRanges }

/-- The event of a packet. -/
def addEvent (packetNodeIndex node : ℕ) : Option RangeCreator :=
  match C.eventStartNodeStack with
  | [] => none
  | start :: stack => some { C with
      eventRanges := update C.eventRanges node
        ⟨some start, some packetNodeIndex, some C.curSubmitNodeIndex⟩
      newEventStart := true
      eventStartNodeStack := stack }

/-- The end of the previous pass. -/
def closePass : Option RangeCreator :=
  match C.renderMarkerIndex with
  | none => some C
  | some marker =>
    -- the start of the next event, and that of the pass
    match C.eventStartNodeStack with
    | _ :: start :: stack => some { C with
        eventRanges := update C.eventRanges marker
          ⟨some start, some C.lastAddedNodeIndex, some C.curSubmitNodeIndex⟩
        eventStartNodeStack := stack }
    | _ => none

/-- The pass that a packet starts. -/
def addPass (packetNodeIndex node : ℕ) : Option RangeCreator :=
  C.closePass.map fun C => { C with
    renderMarkerIndex := some node
    eventStartNodeStack := packetNodeIndex :: C.eventStartNodeStack
    newEventStart := true }

/-- The packet node and what is added below it. -/
def addPacket (h : Pm4Header) : RangeCreator :=
  { C with
    toCommandHierarchyCreator := C.toCommandHierarchyCreator.onPacket (extra kind fields) h
    eventStartNodeStack :=
      if C.newEventStart then C.nodes.length :: C.eventStartNodeStack else C.eventStartNodeStack
    newEventStart := false }

/-- `OnPacket`. -/
def onPacket (h : Pm4Header) : Option RangeCreator :=
  if h.type ≠ 4 ∧ h.type ≠ 7 then some C
  else
    let packetNodeIndex := C.nodes.length
    let C := C.addPacket kind fields h
    let added := match kind packetNodeIndex with
      | .event => C.addEvent packetNodeIndex (nodeOf fields packetNodeIndex)
      | .pass => C.addPass packetNodeIndex (nodeOf fields packetNodeIndex)
      | .other => some C
    added.map fun C => { C with lastAddedNodeIndex := packetNodeIndex }

/-- The present nodes of `OnSubmitEnd`. -/
def onSubmitEnd (presents : ℕ) : RangeCreator :=
  { C with nodes := C.nodes ++ List.replicate presents .other }

/-- The calls of the emulator. -/
def onEvent : Event → Option RangeCreator
  | .ibStart _ ibIndex info ibType => some (C.onIbStart ibIndex info ibType)
  | .ibEnd _ _ => C.onIbEnd
  | .packet _ _ h => C.onPacket kind fields h

end Calls

/-! ## Right ranges -/

/-- The node of a packet of the current submit. -/
def Executed (C : RangeCreator) (i : ℕ) : Prop :=
  C.curSubmitNodeIndex < i ∧ C.nodes[i]? = some .packet

/-- The packets of the event of `p`: no event and no pass since then. -/
def EventOwns (kind : ℕ → PacketKind) (C : RangeCreator) (p i : ℕ) : Prop :=
  i ≤ p ∧ ∀ j, C.Executed j → i ≤ j → j < p → kind j = .other

/-- The packets of the pass that `p` starts: no other pass until then. -/
def PassOwns (kind : ℕ → PacketKind) (C : RangeCreator) (p i : ℕ) : Prop :=
  p ≤ i ∧ ∀ j, C.Executed j → p < j → j ≤ i → kind j ≠ .pass

/-- The packets that are executed, from `base` on, while the IB that starts after `k` others is
open. -/
def IbOwns (kind : ℕ → PacketKind) (fields : ℕ → ℕ) (base : RangeCreator) (t : List Event)
    (k i : ℕ) : Prop :=
  ∃ t₁ ibIndex va h t₂ C n, t = t₁ ++ .packet ibIndex va h :: t₂ ∧ h.isCommand = true ∧
    Monitor.run (onEvent kind fields) base t₁ = some C ∧ Monitor.run (nest true) {} t₁ = some n ∧
    C.nodes.length = i ∧ k ∈ n.opened.map OpenIb.number

/-- From its start to its stop, the range selects exactly these packets. -/
def Selects (C : RangeCreator) (r : SharedRange) (Owns : ℕ → Prop) : Prop :=
  ∃ start stop, r = ⟨some start, some stop, some C.curSubmitNodeIndex⟩ ∧
    C.Executed start ∧ C.Executed stop ∧ start ≤ stop ∧
      ∀ i, C.Executed i → (start ≤ i ∧ i ≤ stop ↔ Owns i)

/-- The calls `t` of a submit lead from `base` to `C`, and after any later calls (in `final`) its
nodes select what is executed while they are open, and what the command buffer view reads of a node
is set: all of the range of an event, a pass or an IB, and the root of the submit and its
presents. -/
structure NodesRight (kind : ℕ → PacketKind) (fields : ℕ → ℕ) (base C final : RangeCreator)
    (t : List Event) (presents : ℕ) : Prop where
  event : ∀ p, C.Executed p → kind p = .event →
    C.Selects (final.eventRanges (nodeOf fields p)) (EventOwns kind C p)
  pass : ∀ p, C.Executed p → kind p = .pass →
    C.Selects (final.eventRanges (nodeOf fields p)) (PassOwns kind C p)
  ib : ∀ k node, base.startedNode C.toCommandHierarchyCreator k = some node →
    (∃ i, IbOwns kind fields base t k i) →
      C.Selects (final.submitRanges node) (IbOwns kind fields base t k)
  ibWritten : ∀ k node, base.startedNode C.toCommandHierarchyCreator k = some node →
    (final.submitRanges node).Written
  submitRoot : (final.submitRanges C.curSubmitNodeIndex).root = some C.curSubmitNodeIndex ∧
    (final.eventRanges C.curSubmitNodeIndex).root = some C.curSubmitNodeIndex
  presentRoot : ∀ i < presents, (final.eventRanges (C.nodes.length + i)).root.isSome

/-- The view reads the start and the end of the submit node, too. -/
structure RangesRight (kind : ℕ → PacketKind) (fields : ℕ → ℕ) (base C final : RangeCreator)
    (t : List Event) (presents : ℕ) : Prop extends
    NodesRight kind fields base C final t presents where
  submit : (final.submitRanges C.curSubmitNodeIndex).Written ∧
    (final.eventRanges C.curSubmitNodeIndex).Written

/-! ## Packets -/

variable {kind : ℕ → PacketKind} {fields : ℕ → ℕ} {C C' : RangeCreator} {h : Pm4Header} {p : ℕ}

theorem Executed.lt (hp : C.Executed p) : p < C.nodes.length :=
  (List.getElem?_eq_some_iff.mp hp.2).1

theorem executed_append {nodes : List Node} (hsubmit : C'.curSubmitNodeIndex = C.curSubmitNodeIndex)
    (hnodes : C'.nodes = C.nodes ++ nodes) (hno : Node.packet ∉ nodes) (i : ℕ) :
    C'.Executed i ↔ C.Executed i := by
  rw [Executed, Executed, hsubmit, hnodes]
  refine and_congr_right fun _ => ?_
  rcases lt_or_ge i C.nodes.length with hlt | hge
  · rw [List.getElem?_append_left hlt]
  · rw [List.getElem?_append_right hge, List.getElem?_eq_none hge]
    refine iff_of_false (fun hi => hno (List.mem_of_getElem? hi)) nofun

theorem nodes_onIbStart (C : RangeCreator) (ibIndex : ℕ) (info : IndirectBufferInfo)
    (ibType : IbType) : ∃ nodes, (C.onIbStart ibIndex info ibType).nodes = C.nodes ++ nodes ∧
      Node.packet ∉ nodes := by
  refine ⟨_, List.append_assoc _ _ _, fun hmem => ?_⟩
  rcases List.mem_append.mp hmem with hmem | hmem
  · split_ifs at hmem
    · exact absurd (List.mem_singleton.mp hmem) nofun
    · exact absurd hmem List.not_mem_nil
  · exact absurd (List.mem_singleton.mp hmem) nofun

theorem creator_addPacket (hh : h.isCommand = true) :
    (C.addPacket kind fields h).toCommandHierarchyCreator = { C.toCommandHierarchyCreator with
      nodes := C.nodes ++ .packet :: List.replicate (extra kind fields C.nodes.length) .other
      startNodeStack :=
        if C.newIbStart then C.nodes.length :: C.startNodeStack else C.startNodeStack
      newIbStart := false } := by
  have hcmd : ¬ (h.type ≠ 4 ∧ h.type ≠ 7) := by
    simp only [Pm4Header.isCommand, Bool.or_eq_true, decide_eq_true_eq] at hh
    tauto
  rw [addPacket, CommandHierarchyCreator.onPacket, if_neg hcmd]

theorem nodes_addPacket (hh : h.isCommand = true) : (C.addPacket kind fields h).nodes =
    C.nodes ++ .packet :: List.replicate (extra kind fields C.nodes.length) .other := by
  rw [creator_addPacket hh]

theorem submit_addPacket :
    (C.addPacket kind fields h).curSubmitNodeIndex = C.curSubmitNodeIndex := by
  rw [addPacket, CommandHierarchyCreator.onPacket]
  split_ifs <;> rfl

/-- **One more packet.** -/
theorem executed_addPacket (hh : h.isCommand = true) (hC : C.curSubmitNodeIndex < C.nodes.length)
    (i : ℕ) : (C.addPacket kind fields h).Executed i ↔ C.Executed i ∨ i = C.nodes.length := by
  rw [Executed, Executed, submit_addPacket, nodes_addPacket hh]
  rcases lt_trichotomy i C.nodes.length with hlt | rfl | hgt
  · rw [List.getElem?_append_left hlt]
    simp [hlt.ne]
  · simp [hC]
  · rw [List.getElem?_append_right hgt.le, List.getElem?_eq_none hgt.le]
    obtain ⟨k, hk⟩ : ∃ k, i - C.nodes.length = k + 1 := ⟨i - C.nodes.length - 1, by omega⟩
    rw [hk, List.getElem?_cons_succ]
    refine iff_of_false (fun hi => ?_) (by simp [hgt.ne'])
    exact absurd (List.eq_of_mem_replicate (List.mem_of_getElem? hi.2)) nofun

theorem Selects.grow {r : SharedRange} {Owns Owns' : ℕ → Prop} (hr : C.Selects r Owns)
    (hsubmit : C'.curSubmitNodeIndex = C.curSubmitNodeIndex)
    (hC' : ∀ i, C'.Executed i ↔ C.Executed i ∨ i = C.nodes.length)
    (hold : ∀ i, C.Executed i → (Owns' i ↔ Owns i)) (hnew : ¬ Owns' C.nodes.length) :
    C'.Selects r Owns' := by
  obtain ⟨start, stop, heq, hstart, hstop, hle, hall⟩ := hr
  refine ⟨start, stop, by rw [heq, hsubmit], (hC' _).mpr (.inl hstart), (hC' _).mpr (.inl hstop),
    hle, fun i hi => ?_⟩
  rcases (hC' i).mp hi with hi | rfl
  · rw [hall i hi, hold i hi]
  · exact iff_of_false (fun h => absurd hstop.lt (not_lt.mpr h.2)) hnew

/-! ## The event topology -/

/-- The events and passes of the submit so far. -/
structure EventsFollow (kind : ℕ → PacketKind) (fields : ℕ → ℕ) (C : RangeCreator) : Prop where
  submit : C.curSubmitNodeIndex < C.nodes.length
  last : ∀ i, C.Executed i → i ≤ C.lastAddedNodeIndex ∧ C.Executed C.lastAddedNodeIndex
  unwritten : ∀ i, C.nodes.length ≤ i → C.eventRanges i = {}
  inside : ∀ p, C.Executed p → kind p ≠ .other → nodeOf fields p < C.nodes.length
  apart : ∀ p q, C.Executed p → kind p ≠ .other → C.Executed q → p < q → nodeOf fields p < q
  settled : C.newEventStart = true → ∀ i, C.Executed i → ∃ j, C.Executed j ∧ i ≤ j ∧ kind j ≠ .other
  stack : ∃ pending rest, C.eventStartNodeStack = pending ++ rest ∧
    (if C.newEventStart then pending = [] else ∃ start, pending = [start] ∧ C.Executed start ∧
      ∀ i, C.Executed i → (start ≤ i ↔ ∀ j, C.Executed j → i ≤ j → kind j = .other)) ∧
    ∀ marker, C.renderMarkerIndex = some marker → ∃ q rest', rest = q :: rest' ∧
      marker = nodeOf fields q ∧ C.Executed q ∧ kind q = .pass ∧
        ∀ j, C.Executed j → q < j → kind j ≠ .pass
  unmarked : C.renderMarkerIndex = none → ∀ p, C.Executed p → kind p ≠ .pass
  event : ∀ p, C.Executed p → kind p = .event →
    C.Selects (C.eventRanges (nodeOf fields p)) (EventOwns kind C p)
  pass : ∀ p q, C.Executed p → kind p = .pass → C.Executed q → p < q → kind q = .pass →
    C.Selects (C.eventRanges (nodeOf fields p)) (PassOwns kind C p)
  lastPass : ∀ p, C.Executed p → kind p = .pass →
    (∀ q, C.Executed q → p < q → kind q ≠ .pass) → C.eventRanges (nodeOf fields p) = {}

theorem EventsFollow.congr (hC : EventsFollow kind fields C) {nodes : List Node}
    (hsubmit : C'.curSubmitNodeIndex = C.curSubmitNodeIndex)
    (hnodes : C'.nodes = C.nodes ++ nodes) (hno : Node.packet ∉ nodes)
    (hstack : C'.eventStartNodeStack = C.eventStartNodeStack)
    (hnew : C'.newEventStart = C.newEventStart)
    (hmarker : C'.renderMarkerIndex = C.renderMarkerIndex)
    (hlast : C'.lastAddedNodeIndex = C.lastAddedNodeIndex)
    (hranges : C'.eventRanges = C.eventRanges) : EventsFollow kind fields C' := by
  have hex : C'.Executed = C.Executed := by
    funext i
    exact propext (executed_append hsubmit hnodes hno i)
  have hlen : C.nodes.length ≤ C'.nodes.length := by simp [hnodes]
  have hev : EventOwns kind C' = EventOwns kind C := by
    funext p i
    rw [EventOwns, EventOwns, hex]
  have hpass : PassOwns kind C' = PassOwns kind C := by
    funext p i
    rw [PassOwns, PassOwns, hex]
  have hsel : C'.Selects = C.Selects := by
    funext r Owns
    rw [Selects, Selects, hsubmit, hex]
  refine ⟨?_, ?_, ?_, ?_, ?_, ?_, ?_, ?_, ?_, ?_, ?_⟩
  · rw [hsubmit]
    exact hC.submit.trans_le hlen
  · rw [hex, hlast]
    exact hC.last
  · rw [hranges]
    exact fun i hi => hC.unwritten i (hlen.trans hi)
  · rw [hex]
    exact fun p hp hk => (hC.inside p hp hk).trans_le hlen
  · rw [hex]
    exact hC.apart
  · rw [hex, hnew]
    exact hC.settled
  · rw [hex, hnew, hstack, hmarker]
    exact hC.stack
  · rw [hex, hmarker]
    exact hC.unmarked
  · rw [hex, hranges, hev, hsel]
    exact hC.event
  · rw [hex, hranges, hpass, hsel]
    exact hC.pass
  · rw [hex, hranges]
    exact hC.lastPass

theorem eventsFollow_onSubmitStart (hC : ∀ i, C.nodes.length ≤ i → C.eventRanges i = {})
    (submitIndex : ℕ) : EventsFollow kind fields (C.onSubmitStart submitIndex) := by
  have hnone : ∀ i, ¬ (C.onSubmitStart submitIndex).Executed i := by
    rintro i ⟨hlt, hi⟩
    have hlt : C.nodes.length < i := hlt
    have hlen := (List.getElem?_eq_some_iff.mp hi).1
    rw [show (C.onSubmitStart submitIndex).nodes = C.nodes ++ [.submit submitIndex] from rfl,
      List.length_append, List.length_singleton] at hlen
    omega
  refine ⟨?_, fun i hi => absurd hi (hnone i), fun i hi => ?_, fun i hi => absurd hi (hnone i),
    fun i _ hi => absurd hi (hnone i), fun _ i hi => absurd hi (hnone i), ⟨[], [], rfl, rfl, nofun⟩,
    fun _ i hi => absurd hi (hnone i), fun i hi => absurd hi (hnone i),
    fun i _ hi => absurd hi (hnone i), fun i hi => absurd hi (hnone i)⟩
  · show C.nodes.length < (C.nodes ++ [_]).length
    simp
  · have hi : (C.nodes ++ [Node.submit submitIndex]).length ≤ i := hi
    rw [List.length_append, List.length_singleton] at hi
    show update C.eventRanges C.nodes.length _ i = _
    rw [Function.update_of_ne (by omega), hC i (by omega)]

/-! ## A packet -/

theorem onPacket_command (hh : h.isCommand = true) : C.onPacket kind fields h =
    (match kind C.nodes.length with
      | .event => (C.addPacket kind fields h).addEvent C.nodes.length (nodeOf fields C.nodes.length)
      | .pass => (C.addPacket kind fields h).addPass C.nodes.length (nodeOf fields C.nodes.length)
      | .other => some (C.addPacket kind fields h)).map fun C' : RangeCreator =>
        { C' with lastAddedNodeIndex := C.nodes.length } := by
  have hcmd : ¬ (h.type ≠ 4 ∧ h.type ≠ 7) := by
    simp only [Pm4Header.isCommand, Bool.or_eq_true, decide_eq_true_eq] at hh
    tauto
  rw [onPacket, if_neg hcmd]

/-- What a packet leaves as it was. -/
structure PacketFrame (kind : ℕ → PacketKind) (fields : ℕ → ℕ) (C : RangeCreator) (h : Pm4Header)
    (C' : RangeCreator) : Prop where
  creator : C'.toCommandHierarchyCreator = (C.addPacket kind fields h).toCommandHierarchyCreator
  last : C'.lastAddedNodeIndex = C.nodes.length
  submitRanges : C'.submitRanges = C.submitRanges
  eventRanges : ∀ i ≤ C.curSubmitNodeIndex, C'.eventRanges i = C.eventRanges i

section Packet

variable (hC : EventsFollow kind fields C) (hh : h.isCommand = true)

include hC hh

theorem EventsFollow.pending : ∃ start rest,
    (C.addPacket kind fields h).eventStartNodeStack = start :: rest ∧
    (C.addPacket kind fields h).Executed start ∧ start ≤ C.nodes.length ∧
    (∀ i, (C.addPacket kind fields h).Executed i →
      (start ≤ i ↔ ∀ j, C.Executed j → i ≤ j → kind j = .other)) ∧
    ∀ marker, C.renderMarkerIndex = some marker → ∃ q rest', rest = q :: rest' ∧
      marker = nodeOf fields q ∧ C.Executed q ∧ kind q = .pass ∧
        ∀ j, C.Executed j → q < j → kind j ≠ .pass := by
  have hex : ∀ i, (C.addPacket kind fields h).Executed i ↔ C.Executed i ∨ i = C.nodes.length :=
    executed_addPacket hh hC.submit
  obtain ⟨pending, rest, hstack, hpending, hmarker⟩ := hC.stack
  have hnone : ∀ j, C.Executed j → C.nodes.length ≤ j → kind j = .other :=
    fun j hj hle => absurd hj.lt (not_lt.mpr hle)
  have heq : (C.addPacket kind fields h).eventStartNodeStack =
      if C.newEventStart then C.nodes.length :: C.eventStartNodeStack
        else C.eventStartNodeStack := rfl
  cases hnew : C.newEventStart with
  | true =>
    rw [hnew, if_pos rfl] at hpending heq
    rw [hpending, List.nil_append] at hstack
    refine ⟨C.nodes.length, rest, by rw [heq, hstack], (hex _).mpr (.inr rfl), le_rfl,
      fun i hi => ?_, hmarker⟩
    rcases (hex i).mp hi with hi | rfl
    · refine iff_of_false (not_le.mpr hi.lt) fun hall => ?_
      obtain ⟨j, hj, hle, hk⟩ := hC.settled hnew i hi
      exact hk (hall j hj hle)
    · exact iff_of_true le_rfl fun j hj hle => hnone j hj hle
  | false =>
    rw [hnew] at hpending heq
    obtain ⟨start, rfl, hstart, hall⟩ := hpending
    refine ⟨start, rest, heq.trans hstack, (hex _).mpr (.inl hstart), hstart.lt.le,
      fun i hi => ?_, hmarker⟩
    rcases (hex i).mp hi with hi | rfl
    · exact hall i hi
    · exact iff_of_true hstart.lt.le fun j hj hle => hnone j hj hle

theorem EventsFollow.of_packet
    (hto : C'.toCommandHierarchyCreator = (C.addPacket kind fields h).toCommandHierarchyCreator)
    (hlast : C'.lastAddedNodeIndex = C.nodes.length)
    (hunwritten : ∀ i, C'.nodes.length ≤ i → C'.eventRanges i = {})
    (hsettled : C'.newEventStart = true → kind C.nodes.length ≠ .other)
    (hstack : ∃ pending rest, C'.eventStartNodeStack = pending ++ rest ∧
      (if C'.newEventStart then pending = [] else ∃ start, pending = [start] ∧ C'.Executed start ∧
        ∀ i, C'.Executed i → (start ≤ i ↔ ∀ j, C'.Executed j → i ≤ j → kind j = .other)) ∧
      ∀ marker, C'.renderMarkerIndex = some marker → ∃ q rest', rest = q :: rest' ∧
        marker = nodeOf fields q ∧ C'.Executed q ∧ kind q = .pass ∧
          ∀ j, C'.Executed j → q < j → kind j ≠ .pass)
    (hunmarked : C'.renderMarkerIndex = none →
      C.renderMarkerIndex = none ∧ kind C.nodes.length ≠ .pass)
    (hkept : ∀ q, C.Executed q → kind q ≠ .other → (kind q = .pass → kind C.nodes.length = .pass →
      ∃ j, C.Executed j ∧ q < j ∧ kind j = .pass) →
        C'.eventRanges (nodeOf fields q) = C.eventRanges (nodeOf fields q))
    (hevent : kind C.nodes.length = .event →
      C'.Selects (C'.eventRanges (nodeOf fields C.nodes.length)) (EventOwns kind C' C.nodes.length))
    (hclosed : kind C.nodes.length = .pass → ∀ q, C.Executed q → kind q = .pass →
      (∀ j, C.Executed j → q < j → kind j ≠ .pass) →
        C'.Selects (C'.eventRanges (nodeOf fields q)) (PassOwns kind C' q))
    (hpass : kind C.nodes.length = .pass →
      C'.eventRanges (nodeOf fields C.nodes.length) = {}) : EventsFollow kind fields C' := by
  have hsubmit : C'.curSubmitNodeIndex = C.curSubmitNodeIndex := by
    rw [hto, submit_addPacket]
  have hnodes : C'.nodes =
      C.nodes ++ .packet :: List.replicate (extra kind fields C.nodes.length) .other := by
    rw [hto, nodes_addPacket hh]
  have hlen : C'.nodes.length = C.nodes.length + extra kind fields C.nodes.length + 1 := by
    rw [hnodes, List.length_append, List.length_cons, List.length_replicate, Nat.add_assoc]
  have hex : ∀ i, C'.Executed i ↔ C.Executed i ∨ i = C.nodes.length := by
    intro i
    rw [← executed_addPacket (C := C) hh hC.submit, Executed, hto, Executed]
  have hbefore : ∀ q, C.Executed q → q < C.nodes.length := fun q hq => hq.lt
  refine ⟨?_, ?_, hunwritten, ?_, ?_, ?_, hstack, ?_, ?_, ?_, ?_⟩
  · have hlt := hC.submit
    omega
  · intro i hi
    rw [hlast, hex]
    rcases (hex i).mp hi with hi | rfl
    · exact ⟨hi.lt.le, .inr rfl⟩
    · exact ⟨le_rfl, .inr rfl⟩
  · intro q hq hk
    rcases (hex q).mp hq with hq | rfl
    · have hlt := hC.inside q hq hk
      omega
    · rw [hlen, nodeOf, extra, if_neg hk]
      omega
  · intro q q' hq hk hq' hlt
    rcases (hex q').mp hq' with hq' | rfl
    · rcases (hex q).mp hq with hq | rfl
      · exact hC.apart q q' hq hk hq' hlt
      · exact absurd hq'.lt (not_lt.mpr hlt.le)
    · rcases (hex q).mp hq with hq | rfl
      · exact hC.inside q hq hk
      · exact absurd hlt (lt_irrefl _)
  · intro hnew i hi
    have hle : i ≤ C.nodes.length := ((hex i).mp hi).elim (fun hi => hi.lt.le) le_of_eq
    exact ⟨C.nodes.length, (hex _).mpr (.inr rfl), hle, hsettled hnew⟩
  · intro hmarker q hq
    rcases (hex q).mp hq with hq | rfl
    · exact hC.unmarked (hunmarked hmarker).1 q hq
    · exact (hunmarked hmarker).2
  · intro q hq hk
    rcases (hex q).mp hq with hq | rfl
    · rw [hkept q hq (by simp [hk]) (by simp [hk])]
      refine (hC.event q hq hk).grow hsubmit hex (fun i hi => ?_) fun hnew => ?_
      · refine and_congr_right fun _ => ⟨fun hall j hj => hall j ((hex j).mpr (.inl hj)),
          fun hall j hj hle hlt => ?_⟩
        rcases (hex j).mp hj with hj | rfl
        · exact hall j hj hle hlt
        · exact absurd hq.lt (not_lt.mpr hlt.le)
      · exact absurd hq.lt (not_lt.mpr hnew.1)
    · exact hevent hk
  · intro q q' hq hk hq' hlt hk'
    have hq : C.Executed q := by
      rcases (hex q).mp hq with hq | rfl
      · exact hq
      · rcases (hex q').mp hq' with hq' | rfl
        · exact absurd hq'.lt (not_lt.mpr hlt.le)
        · exact absurd hlt (lt_irrefl _)
    by_cases hlater : ∃ j, C.Executed j ∧ q < j ∧ kind j = .pass
    · obtain ⟨j, hj, hqj, hkj⟩ := hlater
      rw [hkept q hq (by simp [hk]) fun _ _ => ⟨j, hj, hqj, hkj⟩]
      refine (hC.pass q j hq hk hj hqj hkj).grow hsubmit hex (fun i hi => ?_) fun hnew => ?_
      · refine and_congr_right fun _ => ⟨fun hall j hj => hall j ((hex j).mpr (.inl hj)),
          fun hall j' hj' hlt' hle' => ?_⟩
        rcases (hex j').mp hj' with hj' | rfl
        · exact hall j' hj' hlt' hle'
        · exact absurd hi.lt (not_lt.mpr hle')
      · exact hnew.2 j ((hex j).mpr (.inl hj)) hqj hj.lt.le hkj
    · have hnone : ∀ j, C.Executed j → q < j → kind j ≠ .pass :=
        fun j hj hqj hkj => hlater ⟨j, hj, hqj, hkj⟩
      rcases (hex q').mp hq' with hq' | rfl
      · exact absurd hk' (hnone q' hq' hlt)
      · exact hclosed hk' q hq hk hnone
  · intro q hq hk hnone
    rcases (hex q).mp hq with hq | rfl
    · have hnot : kind C.nodes.length ≠ .pass :=
        hnone _ ((hex _).mpr (.inr rfl)) hq.lt
      rw [hkept q hq (by simp [hk]) fun _ hk' => absurd hk' hnot]
      exact hC.lastPass q hq hk fun j hj => hnone j ((hex j).mpr (.inl hj))
    · exact hpass hk

theorem EventsFollow.other (hk : kind C.nodes.length = .other) :
    ∃ C', C.onPacket kind fields h = some C' ∧ EventsFollow kind fields C' ∧
      PacketFrame kind fields C h C' := by
  obtain ⟨start, rest, hstack, hstart, -, hall, hmarker⟩ := hC.pending hh
  have hex : ∀ i, (C.addPacket kind fields h).Executed i ↔ C.Executed i ∨ i = C.nodes.length :=
    executed_addPacket hh hC.submit
  refine ⟨{ C.addPacket kind fields h with lastAddedNodeIndex := C.nodes.length }, ?_, ?_,
    ⟨rfl, rfl, rfl, fun _ _ => rfl⟩⟩
  · rw [onPacket_command hh, hk, Option.map_some]
  refine hC.of_packet hh rfl rfl (fun i hi => hC.unwritten i ?_) (fun hnew => absurd hnew nofun)
    ⟨[start], rest, hstack, ⟨start, rfl, hstart, fun i hi => ?_⟩, fun marker hm => ?_⟩
    (fun hm => ⟨hm, by rw [hk]; nofun⟩) (fun _ _ _ _ => rfl) (by rw [hk]; nofun)
    (by rw [hk]; nofun) (by rw [hk]; nofun)
  · have hi : (C.addPacket kind fields h).nodes.length ≤ i := hi
    rw [nodes_addPacket hh, List.length_append] at hi
    omega
  · refine (hall i hi).trans
      ⟨fun hold j hj hle => ?_, fun hnew j hj => hnew j ((hex j).mpr (.inl hj))⟩
    rcases (hex j).mp hj with hj | rfl
    · exact hold j hj hle
    · exact hk
  · obtain ⟨q, rest', hrest, hq, hqex, hqk, hqlast⟩ := hmarker marker hm
    refine ⟨q, rest', hrest, hq, (hex q).mpr (.inl hqex), hqk, fun j hj hlt => ?_⟩
    rcases (hex j).mp hj with hj | rfl
    · exact hqlast j hj hlt
    · rw [hk]
      nofun

theorem EventsFollow.addEvent (hk : kind C.nodes.length = .event) :
    ∃ C', C.onPacket kind fields h = some C' ∧ EventsFollow kind fields C' ∧
      PacketFrame kind fields C h C' := by
  obtain ⟨start, rest, hstack, hstart, hle, hall, hmarker⟩ := hC.pending hh
  have hex : ∀ i, (C.addPacket kind fields h).Executed i ↔ C.Executed i ∨ i = C.nodes.length :=
    executed_addPacket hh hC.submit
  have hlen : (C.addPacket kind fields h).nodes.length =
      C.nodes.length + extra kind fields C.nodes.length + 1 := by
    rw [nodes_addPacket hh, List.length_append, List.length_cons, List.length_replicate,
      Nat.add_assoc]
  have hnode : nodeOf fields C.nodes.length < (C.addPacket kind fields h).nodes.length := by
    rw [hlen, nodeOf, extra, hk, if_neg nofun]
    omega
  refine ⟨{ C.addPacket kind fields h with
    eventRanges := update C.eventRanges (nodeOf fields C.nodes.length)
      ⟨some start, some C.nodes.length, some C.curSubmitNodeIndex⟩
    newEventStart := true
    eventStartNodeStack := rest
    lastAddedNodeIndex := C.nodes.length }, ?_, ?_, ⟨rfl, rfl, rfl, fun i hi => ?_⟩⟩
  · rw [onPacket_command hh, hk]
    dsimp only
    rw [RangeCreator.addEvent, hstack, Option.map_some, submit_addPacket]
    rfl
  · refine hC.of_packet hh rfl rfl (fun i hi => ?_) (fun _ => by rw [hk]; nofun)
      ⟨[], rest, rfl, rfl, fun marker hm => ?_⟩ (fun hm => ⟨hm, by rw [hk]; nofun⟩)
      (fun q hq hkq _ => ?_) (fun _ => ?_) (by rw [hk]; nofun) (by rw [hk]; nofun)
    · have hi : (C.addPacket kind fields h).nodes.length ≤ i := hi
      show update C.eventRanges _ _ i = _
      rw [Function.update_of_ne (by omega)]
      exact hC.unwritten i (by omega)
    · obtain ⟨q, rest', hrest, hq, hqex, hqk, hqlast⟩ := hmarker marker hm
      refine ⟨q, rest', hrest, hq, (hex q).mpr (.inl hqex), hqk, fun j hj hlt => ?_⟩
      rcases (hex j).mp hj with hj | rfl
      · exact hqlast j hj hlt
      · rw [hk]
        nofun
    · have hlt := hC.inside q hq hkq
      show update C.eventRanges _ _ _ = _
      rw [Function.update_of_ne (by rw [nodeOf] at hlt ⊢; rw [nodeOf]; omega)]
    · refine ⟨start, C.nodes.length, ?_, hstart, (hex _).mpr (.inr rfl), hle, fun i hi => ?_⟩
      · have hsubmit : (C.addPacket kind fields h).curSubmitNodeIndex = C.curSubmitNodeIndex :=
          submit_addPacket
        exact (Function.update_self _ _ _).trans
          (congrArg (fun root => SharedRange.mk _ _ (some root)) hsubmit.symm)
      · rw [and_comm, hall i hi]
        refine and_congr_right fun _ => ⟨fun hold j hj hij hlt => ?_,
          fun hnew j hj hij => hnew j ((hex j).mpr (.inl hj)) hij hj.lt⟩
        rcases (hex j).mp hj with hj | rfl
        · exact hold j hj hij
        · exact absurd hlt (lt_irrefl _)
  · have hlt := hC.submit
    show update C.eventRanges _ _ i = _
    rw [Function.update_of_ne (by rw [nodeOf]; omega)]

theorem EventsFollow.closePass (hk : kind C.nodes.length = .pass) : ∃ ranges stack,
    (C.addPacket kind fields h).closePass = some { C.addPacket kind fields h with
      eventRanges := ranges, eventStartNodeStack := stack } ∧
    (∀ q, C.Executed q → kind q = .pass → (∀ j, C.Executed j → q < j → kind j ≠ .pass) →
      (C.addPacket kind fields h).Selects (ranges (nodeOf fields q))
        (PassOwns kind (C.addPacket kind fields h) q)) ∧
    ∀ i, (∀ q, C.Executed q → kind q = .pass → (∀ j, C.Executed j → q < j → kind j ≠ .pass) →
      i ≠ nodeOf fields q) → ranges i = C.eventRanges i := by
  obtain ⟨start, rest, hstack, -, -, -, hmarker⟩ := hC.pending hh
  have hex : ∀ i, (C.addPacket kind fields h).Executed i ↔ C.Executed i ∨ i = C.nodes.length :=
    executed_addPacket hh hC.submit
  have hindex : (C.addPacket kind fields h).renderMarkerIndex = C.renderMarkerIndex := rfl
  rw [RangeCreator.closePass, hindex]
  cases hm : C.renderMarkerIndex with
  | none =>
    exact ⟨C.eventRanges, (C.addPacket kind fields h).eventStartNodeStack, rfl,
      fun q hq hkq _ => absurd hkq (hC.unmarked hm q hq), fun _ _ => rfl⟩
  | some marker =>
    obtain ⟨q, rest', rfl, rfl, hq, hkq, hqlast⟩ := hmarker marker hm
    refine ⟨update C.eventRanges (nodeOf fields q)
      ⟨some q, some C.lastAddedNodeIndex, some C.curSubmitNodeIndex⟩, rest', ?_,
      fun q' hq' hkq' hlast' => ?_, fun i hi => Function.update_of_ne (hi q hq hkq hqlast) _ _⟩
    · rw [hstack]
      dsimp only
      rw [submit_addPacket, hindex, hm]
      rfl
    obtain rfl : q' = q := by
      rcases lt_trichotomy q' q with hlt | heq | hgt
      · exact absurd hkq (hlast' q hq hlt)
      · exact heq
      · exact absurd hkq' (hqlast q' hq' hgt)
    rw [Function.update_self]
    obtain ⟨hle, hlast⟩ := hC.last q' hq'
    refine ⟨q', C.lastAddedNodeIndex, by rw [submit_addPacket], (hex _).mpr (.inl hq'),
      (hex _).mpr (.inl hlast), hle, fun i hi => and_congr_right fun _ => ?_⟩
    rcases (hex i).mp hi with hi | rfl
    · refine iff_of_true (hC.last i hi).1 fun j hj hlt hij => ?_
      rcases (hex j).mp hj with hj | rfl
      · exact hqlast j hj hlt
      · exact absurd hi.lt (not_lt.mpr hij)
    · refine iff_of_false (not_le.mpr hlast.lt) fun hnew => ?_
      exact hnew C.nodes.length ((hex _).mpr (.inr rfl)) hq'.lt le_rfl hk

theorem EventsFollow.addPass (hk : kind C.nodes.length = .pass) :
    ∃ C', C.onPacket kind fields h = some C' ∧ EventsFollow kind fields C' ∧
      PacketFrame kind fields C h C' := by
  obtain ⟨ranges, stack, hclose, hclosed, hkept⟩ := hC.closePass hh hk
  have hex : ∀ i, (C.addPacket kind fields h).Executed i ↔ C.Executed i ∨ i = C.nodes.length :=
    executed_addPacket hh hC.submit
  have hlen : (C.addPacket kind fields h).nodes.length =
      C.nodes.length + extra kind fields C.nodes.length + 1 := by
    rw [nodes_addPacket hh, List.length_append, List.length_cons, List.length_replicate,
      Nat.add_assoc]
  have hinside : ∀ q, C.Executed q → kind q = .pass → nodeOf fields q < C.nodes.length :=
    fun q hq hkq => hC.inside q hq (by rw [hkq]; nofun)
  refine ⟨{ C.addPacket kind fields h with
    eventRanges := ranges
    renderMarkerIndex := some (nodeOf fields C.nodes.length)
    eventStartNodeStack := C.nodes.length :: stack
    newEventStart := true
    lastAddedNodeIndex := C.nodes.length }, ?_, ?_, ⟨rfl, rfl, rfl, fun i hi => ?_⟩⟩
  · rw [onPacket_command hh, hk]
    dsimp only
    rw [RangeCreator.addPass, hclose]
    rfl
  · refine hC.of_packet hh rfl rfl (fun i hi => ?_) (fun _ => by rw [hk]; nofun)
      ⟨[], C.nodes.length :: stack, rfl, rfl, fun marker hm => ?_⟩ nofun
      (fun q hq hkq hlater => hkept _ fun q' hq' hkq' hlast' heq => ?_) (by rw [hk]; nofun)
      (fun _ => hclosed) fun _ => ?_
    · have hi : (C.addPacket kind fields h).nodes.length ≤ i := hi
      refine (hkept i fun q hq hkq _ => ?_).trans (hC.unwritten i (by omega))
      have hlt := hinside q hq hkq
      omega
    · refine ⟨C.nodes.length, stack, rfl, (Option.some.inj hm).symm, (hex _).mpr (.inr rfl), hk,
        fun j hj hlt => ?_⟩
      rcases (hex j).mp hj with hj | rfl
      · exact absurd hj.lt (not_lt.mpr hlt.le)
      · exact absurd hlt (lt_irrefl _)
    · have hkq'' : kind q' ≠ .other := by
        rw [hkq']
        nofun
      rcases lt_trichotomy q q' with hlt | rfl | hgt
      · have := hC.apart q q' hq hkq hq' hlt
        rw [heq, nodeOf] at this
        omega
      · obtain ⟨j, hj, hlt, hkj⟩ := hlater hkq' hk
        exact hlast' j hj hlt hkj
      · have := hC.apart q' q hq' hkq'' hq hgt
        rw [← heq, nodeOf] at this
        omega
    · refine (hkept _ fun q hq hkq _ => ?_).trans (hC.unwritten _ ?_)
      · have hlt := hinside q hq hkq
        rw [nodeOf] at hlt ⊢
        rw [nodeOf]
        omega
      · rw [nodeOf]
        omega
  · have hlt := hC.submit
    refine hkept i fun q hq hkq _ => ?_
    have hq := hq.1
    rw [nodeOf]
    omega

theorem EventsFollow.packet : ∃ C', C.onPacket kind fields h = some C' ∧
    EventsFollow kind fields C' ∧ PacketFrame kind fields C h C' := by
  cases hk : kind C.nodes.length with
  | event => exact hC.addEvent hh hk
  | pass => exact hC.addPass hh hk
  | other => exact hC.other hh hk

end Packet

end RangeCreator

end Dive
