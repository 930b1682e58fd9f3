import Dive.CaptureService.TraceManager
import Dive.Lib.Holder
import Mathlib.Data.List.ModifyLast

/-!
# The protocol of the trace manager

* `Lawful`: the signals alternate, a trace by frame has its number of frames and its file name, and
  a wait returns after the traces of the triggers before it.
* `Allowed`: the steps that do not come across another call under way.
* `Slot`: who may signal next; `Invariant`: the slot, with the calls that fit it.
* `invariant_next`, `invariant_begin`: what a step of a call, or a new call, keeps.
* **`lawful_of_allowed`**: along every run of allowed steps the protocol holds.
-/

namespace Dive.AndroidTraceManager

/-! ## What is asked -/

/-- A signal changes the capture state. -/
def switch (on signal : Bool) : Option Bool := if signal = on then none else some signal

/-- A trace by frame has no more than its number of frames; one that has finished has them all, and
was recorded under the file name of the trigger that armed it. -/
def Trace.Exact (numFrameToTrace : UInt32) (t : Trace) : Prop :=
  t.byFrame = true → t.frames ≤ numFrameToTrace.toNat ∧
    (t.finished = true → t.frames = numFrameToTrace.toNat ∧ ∃ arming, t.arming = some arming ∧
      t.collectedAs = some arming.fullPath)

/-- **The protocol**, in a history. -/
structure Lawful (numFrameToTrace : UInt32) (h : History) : Prop where
  /-- On and off signals alternate. -/
  alternate : (Monitor.run switch false h.signals).isSome
  exact : ∀ t ∈ h.traces, t.Exact numFrameToTrace
  waits : ∀ w ∈ h.waits, ∀ i ∈ w.before, i ∈ w.finished

/-! ## The steps that are allowed -/

/-- A trigger between its file name and its trace, or a trace by duration. -/
def Call.isHolding : Call → Bool
  | .frameArm _ => true
  | .durationArm _ => true
  | .durationSetPath _ => true
  | .durationStart => true
  | .durationStop => true
  | _ => false

/-- A trigger has given its file name to the library, and its trace has not finished. -/
def State.busy (s : State) : Bool :=
  s.state = .triggered || s.state = .tracing || s.calls.any Call.isHolding

/-- A trace by duration is armed, and not on yet. -/
def Call.armsDuration : Call → Bool
  | .durationSetPath _ => true
  | .durationStart => true
  | _ => false

/-- **The next step of a call comes across no other call under way**: a file name is given when no
other trace is armed or on, and is made from one frame number; no frame is counted while another one
is between its count and its section; and no frame starts or stops a trace by duration. -/
def Call.Allowed (numFrameToTrace : UInt32) (s : State) : Call → Prop
  | .framePath num => s.frameNum = num
  | .frameSetName _ _ => s.busy = false
  | .durationSetName _ _ => s.busy = false
  | .newFrame => .frameSection ∉ s.calls
  | .frameSection => s.calls.any Call.armsDuration = false ∧
      (.durationStop ∈ s.calls → s.shouldStopTrace numFrameToTrace = false)
  | _ => True

def Allowed (numFrameToTrace : UInt32) (s : State) : Step → Prop
  | .begin _ => True
  | .next i => ∀ call, s.calls[i]? = some call → call.Allowed numFrameToTrace s

/-! ## The slot -/

/-- What the slot depends on. -/
def State.core (s : State) : State :=
  { s with
    traceFilePath := []
    traceNum := 0
    calls := []
    history := { s.history with waits := [] } }

section Slot

variable (numFrameToTrace : UInt32)

/-- No trace is on. -/
structure Settled (s : State) : Prop where
  signals : Monitor.run switch false s.history.signals = some false
  off : s.wrap.captureState = false
  finished : ∀ t ∈ s.history.traces, t.finished = true
  exact : ∀ t ∈ s.history.traces, t.Exact numFrameToTrace

/-- The trace `t` is on. -/
structure Tracing (s : State) (t : Trace) : Prop where
  signals : Monitor.run switch false s.history.signals = some true
  on : s.wrap.captureState = true
  isOn : t.finished = false
  traces : ∃ ts, s.history.traces = ts ++ [t] ∧ (∀ u ∈ ts, u.finished = true) ∧
    ∀ u ∈ ts, u.Exact numFrameToTrace

theorem Tracing.exact {numFrameToTrace : UInt32} {s : State} {t : Trace}
    (h : Tracing numFrameToTrace s t) (hle : t.byFrame = true → t.frames ≤ numFrameToTrace.toNat) :
    ∀ t ∈ s.history.traces, t.Exact numFrameToTrace := by
  obtain ⟨ts, hts, _, hexact⟩ := h.traces
  rw [hts, List.forall_mem_append, List.forall_mem_singleton]
  refine ⟨hexact, fun hframe => ⟨hle hframe, fun hfinished => ?_⟩⟩
  rw [h.isOn] at hfinished
  cases hfinished

/-- The triggers that have returned are those of finished traces, but for `i`. -/
def ReturnedBut (s : State) (i : CallId) : Prop :=
  ∀ j ∈ s.history.returned, j ∈ s.history.finishedTriggers ∨ j = i

/-- **Who may signal next**: nobody, the trigger that has set the file name, a trigger that has
armed a trace by frame and returned, or the one of a trace by duration. -/
inductive Slot (s : State) : Option (CallId × Call) → Prop
  | free : Settled numFrameToTrace s → s.state ≠ .triggered → s.state ≠ .tracing →
    (∀ i ∈ s.history.returned, i ∈ s.history.finishedTriggers) → Slot s none
  | named {i : CallId} {call : Call} {fullPath : FilePath} : Settled numFrameToTrace s →
    s.state ≠ .triggered → s.state ≠ .tracing →
    (∀ i ∈ s.history.returned, i ∈ s.history.finishedTriggers) →
    call = .frameArm fullPath ∧ s.wrap.capturePath = fullPath ∨ call = .durationArm fullPath →
    Slot s (some (i, call))
  | armed {arming : Arming} : Settled numFrameToTrace s → s.state = .triggered →
    s.history.arming = some arming → s.wrap.capturePath = arming.fullPath →
    ReturnedBut s arming.trigger → Slot s none
  | tracing {arming : Arming} {t : Trace} : Tracing numFrameToTrace s t → s.state = .tracing →
    t.arming = some arming → s.wrap.capturePath = arming.fullPath →
    t.frames = (s.frameNum - s.traceStartFrame).toNat → t.frames ≤ numFrameToTrace.toNat →
    ReturnedBut s arming.trigger → Slot s none
  | armedDuration {i : CallId} {call : Call} {fullPath : FilePath} : Settled numFrameToTrace s →
    s.state = .triggered → s.history.arming = some ⟨i, fullPath⟩ → call.armsDuration = true →
    (∀ i ∈ s.history.returned, i ∈ s.history.finishedTriggers) → Slot s (some (i, call))
  | tracingDuration {i : CallId} {fullPath : FilePath} {t : Trace} : Tracing numFrameToTrace s t →
    s.state = .tracing → t.byFrame = false → t.arming = some ⟨i, fullPath⟩ →
    (∀ i ∈ s.history.returned, i ∈ s.history.finishedTriggers) →
    Slot s (some (i, .durationStop))

/-- The local variables of a call fit: a file name is the one that is made from its number, and what
had returned before a wait has returned. -/
def Call.Fits (s : State) : Call → Prop
  | .frameSetPath num fullPath => rdPath State.framePrefix num = fullPath
  | .frameSetName num fullPath => rdPath State.framePrefix num = fullPath
  | .waitForTraceDone returned => ∀ i ∈ returned, i ∈ s.history.returned
  | _ => True

/-- Between the frames, a trace that is on has not reached its number of frames, unless it is one by
duration. -/
def State.Open (s : State) : Prop :=
  .frameSection ∉ s.calls → .durationStop ∉ s.calls → s.shouldStopTrace numFrameToTrace = false

/-- **What each step keeps.** -/
structure Invariant (s : State) : Prop where
  slot : ∃ w, Holder.Holds Call.isHolding s.calls w ∧ Slot numFrameToTrace s.core w
  fits : ∀ call ∈ s.calls, call.Fits s
  isOpen : s.Open numFrameToTrace
  waits : ∀ w ∈ s.history.waits, ∀ i ∈ w.before, i ∈ w.finished

end Slot

/-! ## Traces -/

section Traces

variable {numFrameToTrace : UInt32} {ts : List Trace} {t : Trace} {s u : State} {i : CallId}

/-- The triggers of the traces that have finished. -/
def triggersOf (ts : List Trace) : List CallId :=
  (ts.filter (·.finished)).filterMap fun t => t.arming.map (·.trigger)

theorem triggersOf_concat_isOn (h : t.finished = false) : triggersOf (ts ++ [t]) = triggersOf ts := by
  rw [triggersOf, List.filter_append, List.filter_singleton, h]
  simp [triggersOf]

theorem mem_triggersOf_concat {arming : Arming} (h : t.finished = true)
    (harming : t.arming = some arming) :
    i ∈ triggersOf (ts ++ [t]) ↔ i ∈ triggersOf ts ∨ i = arming.trigger := by
  have hlast : triggersOf [t] = [arming.trigger] := by simp [triggersOf, h, harming]
  have happend : triggersOf (ts ++ [t]) = triggersOf ts ++ triggersOf [t] := by
    rw [triggersOf, List.filter_append, List.filterMap_append]
    rfl
  rw [happend, hlast, List.mem_append, List.mem_singleton]

theorem Trace.newFrame_of_finished (h : t.finished = true) : t.newFrame = t := by
  rw [Trace.newFrame, if_pos h]

theorem modifyLast_newFrame (h : ∀ t ∈ ts, t.finished = true) :
    ts.modifyLast Trace.newFrame = ts := by
  rcases List.eq_nil_or_concat' ts with rfl | ⟨ts, t, rfl⟩
  · rfl
  · rw [List.modifyLast_concat, Trace.newFrame_of_finished (h t (by simp))]

theorem Settled.tracing (h : Settled numFrameToTrace s) (byFrame : Bool)
    (hsignals : u.history.signals = s.history.signals ++ [true]) (hon : u.wrap.captureState = true)
    (htraces : u.history.traces =
      s.history.traces ++ [{ arming := s.history.arming, byFrame := byFrame }]) :
    Tracing numFrameToTrace u { arming := s.history.arming, byFrame := byFrame } where
  signals := by
    rw [hsignals, Monitor.run_append_of h.signals]
    rfl
  on := hon
  isOn := rfl
  traces := ⟨_, htraces, h.finished, h.exact⟩

theorem Tracing.settled (h : Tracing numFrameToTrace s t) {path : Option FilePath}
    (hsignals : u.history.signals = s.history.signals ++ [false])
    (hoff : u.wrap.captureState = false)
    (htraces : u.history.traces = s.history.traces.modifyLast (·.finish path))
    (hexact : (t.finish path).Exact numFrameToTrace) : Settled numFrameToTrace u ∧
      ∀ arming, t.arming = some arming → ∀ j, j ∈ u.history.finishedTriggers ↔
        j ∈ s.history.finishedTriggers ∨ j = arming.trigger := by
  obtain ⟨ts, hts, hfinished, hexacts⟩ := h.traces
  have hfinish : t.finish path = { t with finished := true, collectedAs := path } := by
    rw [Trace.finish, h.isOn]
    rfl
  rw [hts, List.modifyLast_concat] at htraces
  have hlast : (t.finish path).finished = true := by rw [hfinish]
  refine ⟨⟨?_, hoff, ?_, ?_⟩, fun arming harming j => ?_⟩
  · rw [hsignals, Monitor.run_append_of h.signals]
    rfl
  · rw [htraces, List.forall_mem_append, List.forall_mem_singleton]
    exact ⟨hfinished, hlast⟩
  · rw [htraces, List.forall_mem_append, List.forall_mem_singleton]
    exact ⟨hexacts, hexact⟩
  · show j ∈ triggersOf u.history.traces ↔ j ∈ triggersOf s.history.traces ∨ _
    rw [htraces, hts, triggersOf_concat_isOn h.isOn,
      mem_triggersOf_concat hlast (by rw [hfinish]; exact harming)]

end Traces

/-! ## Steps -/

section Steps

variable {numFrameToTrace : UInt32} {s t : State} {i : CallId} {call call' : Call}

theorem Call.Fits.mono (h : call.Fits s)
    (hreturned : ∀ j ∈ s.history.returned, j ∈ t.history.returned) : call.Fits t := by
  cases call with
  | waitForTraceDone returned => exact fun j hj => hreturned j (h j hj)
  | _ => exact h

theorem fits_set (h : ∀ call ∈ s.calls, call.Fits s) (hcalls : t.calls = s.calls.set i call')
    (hreturned : ∀ j ∈ s.history.returned, j ∈ t.history.returned) (hnew : call'.Fits t) :
    ∀ call ∈ t.calls, call.Fits t := by
  intro call hcall
  rw [hcalls] at hcall
  rcases List.mem_or_eq_of_mem_set hcall with hmem | rfl
  · exact (h call hmem).mono hreturned
  · exact hnew

theorem not_mem_of_not_mem_set {c : Call} (hcall : s.calls[i]? = some call) (hne : call ≠ c)
    (h : c ∉ s.calls.set i call') : c ∉ s.calls := by
  intro hmem
  obtain ⟨j, hj⟩ := List.mem_iff_getElem?.mp hmem
  have hij : i ≠ j := by
    rintro rfl
    exact hne (Option.some.inj (hcall.symm.trans hj))
  exact h (List.mem_of_getElem? ((List.getElem?_set_ne hij).trans hj))

theorem State.Open.set (h : s.Open numFrameToTrace) (hcall : s.calls[i]? = some call)
    (hsection : call ≠ .frameSection) (hduration : call ≠ .durationStop)
    (hcalls : t.calls = s.calls.set i call')
    (hsame : t.shouldStopTrace numFrameToTrace = s.shouldStopTrace numFrameToTrace) :
    t.Open numFrameToTrace := by
  intro hsection' hduration'
  rw [hcalls] at hsection' hduration'
  rw [hsame]
  exact h (not_mem_of_not_mem_set hcall hsection hsection')
    (not_mem_of_not_mem_set hcall hduration hduration')

theorem State.open_of_ne (h : s.state ≠ .tracing) : s.Open numFrameToTrace := by
  intro _ _
  rw [State.shouldStopTrace, decide_eq_false h]
  rfl

theorem State.Open.set_of_mem {c : Call} (hcall : s.calls[i]? = some call)
    (hcalls : t.calls = s.calls.set i c) (hc : c = .frameSection ∨ c = .durationStop) :
    t.Open numFrameToTrace := by
  have hmem : c ∈ t.calls := by
    rw [hcalls]
    exact List.mem_of_getElem? (List.getElem?_set_self (List.getElem?_eq_some_iff.mp hcall).1)
  rintro hsection hduration
  rcases hc with rfl | rfl
  · exact absurd hmem hsection
  · exact absurd hmem hduration

theorem Invariant.goTo (h : Invariant numFrameToTrace s) (hcall : s.calls[i]? = some call)
    (hholding : call.isHolding = false) (hsection : call ≠ .frameSection)
    (hholding' : call'.isHolding = false)
    (hcalls : t.calls = s.calls.set i call') (hcore : t.core = s.core)
    (hwaits : t.history.waits = s.history.waits) (hnew : call'.Fits s) :
    Invariant numFrameToTrace t := by
  obtain ⟨w, hw, hslot⟩ := h.slot
  have hreturned : t.history.returned = s.history.returned := by
    have hhistory : t.core.history.returned = s.core.history.returned := by rw [hcore]
    exact hhistory
  have hduration : call ≠ .durationStop := by
    rintro rfl
    cases hholding
  have hsame : t.shouldStopTrace numFrameToTrace = s.shouldStopTrace numFrameToTrace := by
    have hshould : t.core.shouldStopTrace numFrameToTrace =
        s.core.shouldStopTrace numFrameToTrace := by
      rw [hcore]
    exact hshould
  refine ⟨⟨w, ?_, hcore ▸ hslot⟩, ?_, h.isOpen.set hcall hsection hduration hcalls hsame,
    hwaits ▸ h.waits⟩
  · rw [hcalls]
    exact hw.set_other hcall hholding hholding'
  · exact fits_set h.fits hcalls (by simp [hreturned]) (hnew.mono (by simp [hreturned]))

theorem Invariant.slot_of_holding (h : Invariant numFrameToTrace s)
    (hcall : s.calls[i]? = some call) (hholding : call.isHolding = true) :
    Holder.Holds Call.isHolding s.calls (some (i, call)) ∧
      Slot numFrameToTrace s.core (some (i, call)) := by
  obtain ⟨w, hw, hslot⟩ := h.slot
  obtain rfl := hw.eq_of hcall hholding
  exact ⟨hw, hslot⟩

theorem Invariant.slot_of_not_busy (h : Invariant numFrameToTrace s) (hbusy : s.busy = false) :
    Holder.Holds Call.isHolding s.calls none ∧ Settled numFrameToTrace s.core ∧
      s.state ≠ .triggered ∧ s.state ≠ .tracing ∧
      ∀ i ∈ s.history.returned, i ∈ s.history.finishedTriggers := by
  obtain ⟨w, hw, hslot⟩ := h.slot
  rw [State.busy, Bool.or_eq_false_iff, Bool.or_eq_false_iff, decide_eq_false_iff_not,
    decide_eq_false_iff_not, List.any_eq_false] at hbusy
  obtain ⟨⟨htriggered, htracing⟩, hcalls⟩ := hbusy
  cases w with
  | some w =>
    cases hw with
    | held hi ha _ => exact absurd ha (hcalls _ (List.mem_of_getElem? hi))
  | none =>
    cases hslot with
    | free hsettled _ _ hreturned => exact ⟨hw, hsettled, htriggered, htracing, hreturned⟩
    | armed _ hstate => exact absurd hstate htriggered
    | tracing _ hstate => exact absurd hstate htracing

theorem Invariant.of_slot (h : Invariant numFrameToTrace s) {w : Option (CallId × Call)}
    (hcalls : t.calls = s.calls.set i call') (hw : Holder.Holds Call.isHolding (s.calls.set i call') w)
    (hslot : Slot numFrameToTrace t.core w) (hwaits : t.history.waits = s.history.waits)
    (hreturned : ∀ j ∈ s.history.returned, j ∈ t.history.returned) (hnew : call'.Fits t)
    (hopen : t.Open numFrameToTrace) : Invariant numFrameToTrace t :=
  ⟨⟨w, hcalls ▸ hw, hslot⟩, fits_set h.fits hcalls hreturned hnew, hopen, hwaits ▸ h.waits⟩

/-! ## Triggers -/

theorem Invariant.frameSetName {num : UInt32} {fullPath : FilePath}
    (h : Invariant numFrameToTrace s) (hcall : s.calls[i]? = some (.frameSetName num fullPath))
    (hbusy : s.busy = false) : Invariant numFrameToTrace
      ({ s with wrap := s.wrap.setCaptureName State.framePrefix (strCat num) }.goTo i
        (.frameArm fullPath)) := by
  obtain ⟨hholds, hsettled, htriggered, htracing, hreturned⟩ := h.slot_of_not_busy hbusy
  have hfits := h.fits _ (List.mem_of_getElem? hcall)
  have hpath := (capturePath_setCaptureName s.wrap State.framePrefix num).trans hfits
  refine h.of_slot rfl (hholds.take hcall rfl) ?_ rfl (fun _ hj => hj) trivial
    (State.open_of_ne htracing)
  apply Slot.named
  · exact ⟨hsettled.signals, hsettled.off, hsettled.finished, hsettled.exact⟩
  · exact htriggered
  · exact htracing
  · exact hreturned
  · exact .inl ⟨rfl, hpath⟩

theorem Invariant.durationSetName {num : UInt32} {fullPath : FilePath}
    (h : Invariant numFrameToTrace s) (hcall : s.calls[i]? = some (.durationSetName num fullPath))
    (hbusy : s.busy = false) : Invariant numFrameToTrace
      ({ s with wrap := s.wrap.setCaptureName State.durationPrefix (strCat num) }.goTo i
        (.durationArm fullPath)) := by
  obtain ⟨hholds, hsettled, htriggered, htracing, hreturned⟩ := h.slot_of_not_busy hbusy
  refine h.of_slot rfl (hholds.take hcall rfl) ?_ rfl (fun _ hj => hj) trivial
    (State.open_of_ne htracing)
  apply Slot.named
  · exact ⟨hsettled.signals, hsettled.off, hsettled.finished, hsettled.exact⟩
  · exact htriggered
  · exact htracing
  · exact hreturned
  · exact .inr rfl

theorem arming_arm {fullPath : FilePath} (h : s.state ≠ .triggered) :
    (s.arm i fullPath).history.arming = some ⟨i, fullPath⟩ := by
  rw [State.arm, if_neg h]

theorem Invariant.frameArm {fullPath : FilePath} (h : Invariant numFrameToTrace s)
    (hcall : s.calls[i]? = some (.frameArm fullPath)) :
    Invariant numFrameToTrace ((s.arm i fullPath).returnTrigger i) := by
  obtain ⟨hholds, hslot⟩ := h.slot_of_holding hcall rfl
  cases hslot with
  | named hsettled htriggered htracing hreturned hname =>
    rcases hname with ⟨heq, hpath⟩ | heq
    · cases heq
      refine h.of_slot rfl (hholds.release rfl) ?_ rfl
        (fun _ hj => List.mem_append_left _ hj) trivial (State.open_of_ne nofun)
      apply Slot.armed
      · exact ⟨hsettled.signals, hsettled.off, hsettled.finished, hsettled.exact⟩
      · rfl
      · exact arming_arm htriggered
      · exact hpath
      · intro j hj
        rcases List.mem_append.mp hj with hj | hj
        · exact .inl (hreturned j hj)
        · exact .inr (List.mem_singleton.mp hj)
    · cases heq
  | armedDuration _ _ _ harms _ => cases harms

theorem Invariant.durationArm {fullPath : FilePath} (h : Invariant numFrameToTrace s)
    (hcall : s.calls[i]? = some (.durationArm fullPath)) :
    Invariant numFrameToTrace ((s.arm i fullPath).goTo i (.durationSetPath fullPath)) := by
  obtain ⟨hholds, hslot⟩ := h.slot_of_holding hcall rfl
  cases hslot with
  | named hsettled htriggered htracing hreturned _ =>
    refine h.of_slot rfl (hholds.go rfl) ?_ rfl (fun _ hj => hj) trivial (State.open_of_ne nofun)
    apply Slot.armedDuration
    · exact ⟨hsettled.signals, hsettled.off, hsettled.finished, hsettled.exact⟩
    · rfl
    · exact arming_arm htriggered
    · rfl
    · exact hreturned
  | armedDuration _ _ _ harms _ => cases harms

theorem Invariant.durationSetPath {fullPath : FilePath} (h : Invariant numFrameToTrace s)
    (hcall : s.calls[i]? = some (.durationSetPath fullPath)) :
    Invariant numFrameToTrace ({ s with traceFilePath := fullPath }.goTo i .durationStart) := by
  obtain ⟨hholds, hslot⟩ := h.slot_of_holding hcall rfl
  refine h.of_slot rfl (hholds.go rfl) ?_ rfl (fun _ hj => hj) trivial
    (h.isOpen.set hcall nofun nofun rfl rfl)
  cases hslot with
  | named _ _ _ _ hname =>
    rcases hname with ⟨heq, _⟩ | heq
    · cases heq
    · cases heq
  | armedDuration hsettled hstate harming _ hreturned =>
    exact .armedDuration hsettled hstate harming rfl hreturned

theorem Invariant.durationStart (h : Invariant numFrameToTrace s)
    (hcall : s.calls[i]? = some .durationStart) : Invariant numFrameToTrace
      ({ s.setCaptureOn false with state := .tracing }.goTo i .durationStop) := by
  obtain ⟨hholds, hslot⟩ := h.slot_of_holding hcall rfl
  refine h.of_slot rfl (hholds.go rfl) ?_ rfl (fun _ hj => hj) trivial
    (State.Open.set_of_mem hcall rfl (.inr rfl))
  cases hslot with
  | named _ _ _ _ hname =>
    rcases hname with ⟨heq, _⟩ | heq
    · cases heq
    · cases heq
  | armedDuration hsettled _ harming _ hreturned =>
    have htracing := hsettled.tracing false
      (u := ({ s.setCaptureOn false with state := .tracing }.goTo i .durationStop).core) rfl rfl rfl
    refine .tracingDuration htracing rfl rfl harming fun j hj => ?_
    show j ∈ triggersOf (s.history.traces ++ [_])
    rw [triggersOf_concat_isOn rfl]
    exact hreturned j hj

theorem Invariant.durationStop (h : Invariant numFrameToTrace s)
    (hcall : s.calls[i]? = some .durationStop) : Invariant numFrameToTrace
      ({ s.setCaptureOff with state := .finished }.returnTrigger i) := by
  obtain ⟨hholds, hslot⟩ := h.slot_of_holding hcall rfl
  refine h.of_slot rfl (hholds.release rfl) ?_ rfl
    (fun _ hj => List.mem_append_left _ hj) trivial (State.open_of_ne nofun)
  cases hslot with
  | named _ _ _ _ hname =>
    rcases hname with ⟨heq, _⟩ | heq
    · cases heq
    · cases heq
  | armedDuration _ _ _ harms _ => cases harms
  | @tracingDuration _ fullPath t htracing _ hbyFrame harming hreturned =>
    have hexact : (t.finish (if s.wrap.captureState then some s.wrap.capturePath else none)).Exact
        numFrameToTrace := by
      intro hframe
      rw [Trace.finish, htracing.isOn, if_neg Bool.false_ne_true, hbyFrame] at hframe
      cases hframe
    obtain ⟨hsettled, htriggers⟩ := htracing.settled
      (u := ({ s.setCaptureOff with state := .finished }.returnTrigger i).core) rfl rfl rfl hexact
    refine .free hsettled nofun nofun fun j hj => ?_
    rw [htriggers _ harming]
    rcases List.mem_append.mp hj with hj | hj
    · exact .inl (hreturned j hj)
    · exact .inr (List.mem_singleton.mp hj)

/-! ## Frames -/

theorem Settled.countFrame (h : Settled numFrameToTrace s) : Settled numFrameToTrace s.countFrame ∧
    s.countFrame.history = s.history := by
  have htraces : s.countFrame.history = s.history := by
    show ({ s.history with traces := _ } : History) = s.history
    rw [modifyLast_newFrame h.finished]
  exact ⟨⟨htraces ▸ h.signals, h.off, htraces ▸ h.finished, htraces ▸ h.exact⟩, htraces⟩

theorem Tracing.countFrame {t : Trace} (h : Tracing numFrameToTrace s t) :
    Tracing numFrameToTrace s.countFrame { t with frames := t.frames + 1 } ∧
      s.countFrame.history.finishedTriggers = s.history.finishedTriggers := by
  obtain ⟨ts, hts, hfinished, hexact⟩ := h.traces
  have htraces : s.countFrame.history.traces = ts ++ [{ t with frames := t.frames + 1 }] := by
    show s.history.traces.modifyLast Trace.newFrame = _
    rw [hts, List.modifyLast_concat, Trace.newFrame, h.isOn]
    rfl
  have hon : { t with frames := t.frames + 1 }.finished = false := h.isOn
  refine ⟨⟨h.signals, h.on, hon, ts, htraces, hfinished, hexact⟩, ?_⟩
  show triggersOf _ = triggersOf _
  rw [htraces, hts, triggersOf_concat_isOn hon, triggersOf_concat_isOn h.isOn]

theorem frames_countFrame {frames : ℕ} (hstate : s.state = .tracing)
    (hstop : s.shouldStopTrace numFrameToTrace = false)
    (hframes : frames = (s.frameNum - s.traceStartFrame).toNat) :
    frames + 1 = (s.frameNum + 1 - s.traceStartFrame).toNat ∧
      frames + 1 ≤ numFrameToTrace.toNat := by
  have hlt : (s.frameNum - s.traceStartFrame).toNat < numFrameToTrace.toNat := by
    simpa [State.shouldStopTrace, hstate, UInt32.lt_iff_toNat_lt] using hstop
  have hcomm : s.frameNum + 1 - s.traceStartFrame = s.frameNum - s.traceStartFrame + 1 := by
    grind
  have hadd : (s.frameNum - s.traceStartFrame + 1).toNat =
      (s.frameNum - s.traceStartFrame).toNat + 1 := by
    have hbound := numFrameToTrace.toNat_lt
    rw [UInt32.toNat_add]
    apply Nat.mod_eq_of_lt
    show _ + 1 < _
    omega
  rw [hcomm, hadd, hframes]
  exact ⟨rfl, hlt⟩

theorem Invariant.newFrame (h : Invariant numFrameToTrace s) (hcall : s.calls[i]? = some .newFrame)
    (hallowed : .frameSection ∉ s.calls) :
    Invariant numFrameToTrace (s.countFrame.goTo i .frameSection) := by
  obtain ⟨w, hholds, hslot⟩ := h.slot
  refine h.of_slot rfl (hholds.set_other hcall rfl rfl) (w := w) ?_ rfl (fun _ hj => hj) trivial
    (State.Open.set_of_mem hcall rfl (.inl rfl))
  cases hslot with
  | free hsettled htriggered htracing hreturned =>
    obtain ⟨hsettled, hhistory⟩ := hsettled.countFrame
    refine .free hsettled htriggered htracing ?_
    exact hhistory ▸ hreturned
  | named hsettled htriggered htracing hreturned hname =>
    obtain ⟨hsettled, hhistory⟩ := hsettled.countFrame
    exact .named hsettled htriggered htracing (hhistory ▸ hreturned) hname
  | armed hsettled hstate harming hpath hreturned =>
    obtain ⟨hsettled, hhistory⟩ := hsettled.countFrame
    refine .armed hsettled hstate harming hpath ?_
    exact fun j hj => hhistory ▸ hreturned j hj
  | tracing htracing hstate harming hpath hframes _ hreturned =>
    have hduration : .durationStop ∉ s.calls := fun hmem => by
      cases hholds with
      | free hfree => exact Bool.noConfusion (hfree _ hmem)
    obtain ⟨hframes, hle⟩ := frames_countFrame hstate (h.isOpen hallowed hduration) hframes
    obtain ⟨htracing, htriggers⟩ := htracing.countFrame
    refine .tracing htracing hstate harming hpath hframes hle fun j hj => ?_
    exact htriggers ▸ hreturned j hj
  | armedDuration hsettled hstate harming harms hreturned =>
    obtain ⟨hsettled, hhistory⟩ := hsettled.countFrame
    exact .armedDuration hsettled hstate harming harms (hhistory ▸ hreturned)
  | tracingDuration htracing hstate hbyFrame harming hreturned =>
    obtain ⟨htracing, htriggers⟩ := htracing.countFrame
    exact .tracingDuration htracing hstate hbyFrame harming (htriggers ▸ hreturned)

theorem onNewFrame_of_ne (htriggered : s.state ≠ .triggered) (htracing : s.state ≠ .tracing) :
    s.onNewFrame numFrameToTrace = s := by
  rw [State.onNewFrame, State.shouldStartTrace, State.shouldStopTrace, decide_eq_false htriggered,
    decide_eq_false htracing]
  rfl

theorem onNewFrame_of_triggered (h : s.state = .triggered) :
    s.onNewFrame numFrameToTrace = s.onTraceStart := by
  rw [State.onNewFrame, State.shouldStartTrace, h]
  rfl

theorem onNewFrame_of_tracing (h : s.state = .tracing) : s.onNewFrame numFrameToTrace =
    if s.shouldStopTrace numFrameToTrace then s.onTraceStop else s := by
  rw [State.onNewFrame, State.shouldStartTrace, h]
  rfl

theorem slot_onTraceStart {arming : Arming} (hsettled : Settled numFrameToTrace s.core)
    (harming : s.history.arming = some arming) (hpath : s.wrap.capturePath = arming.fullPath)
    (hreturned : ReturnedBut s.core arming.trigger) :
    Slot numFrameToTrace (s.onTraceStart.goTo i call).core none := by
  have htracing := hsettled.tracing true (u := (s.onTraceStart.goTo i call).core)
    rfl rfl rfl
  have hzero : 0 = (s.frameNum - s.frameNum).toNat := by
    rw [UInt32.sub_self]
    rfl
  refine .tracing htracing rfl harming hpath hzero (Nat.zero_le _) fun j hj => ?_
  show j ∈ triggersOf (s.history.traces ++ [_]) ∨ _
  rw [triggersOf_concat_isOn rfl]
  exact hreturned j hj

theorem slot_onTraceStop {t : Trace} {arming : Arming} (htracing : Tracing numFrameToTrace s.core t)
    (harming : t.arming = some arming) (hpath : s.wrap.capturePath = arming.fullPath)
    (hframes : t.frames = numFrameToTrace.toNat) (hreturned : ReturnedBut s.core arming.trigger) :
    Slot numFrameToTrace (s.onTraceStop.goTo i call).core none := by
  have hexact : (t.finish (if s.wrap.captureState then some s.wrap.capturePath else none)).Exact
      numFrameToTrace := by
    intro _
    have hon : s.wrap.captureState = true := htracing.on
    rw [Trace.finish, htracing.isOn, if_neg Bool.false_ne_true, if_pos hon]
    exact ⟨hframes.le, fun _ => ⟨hframes, arming, harming, congrArg some hpath⟩⟩
  obtain ⟨hsettled, htriggers⟩ := htracing.settled (u := (s.onTraceStop.goTo i call).core)
    rfl rfl rfl hexact
  refine .free hsettled nofun nofun fun j hj => ?_
  rw [htriggers _ harming]
  exact hreturned j hj

variable (call) in
theorem open_onNewFrame (hpos : 0 < numFrameToTrace) :
    ((s.onNewFrame numFrameToTrace).goTo i call).Open numFrameToTrace := by
  intro _ _
  show (s.onNewFrame numFrameToTrace).shouldStopTrace numFrameToTrace = false
  rw [State.onNewFrame]
  split_ifs with hstart hstop
  · have hzero : ¬ numFrameToTrace ≤ s.frameNum - s.frameNum := by
      rw [UInt32.sub_self, UInt32.not_le]
      exact hpos
    show (true && decide (numFrameToTrace ≤ s.frameNum - s.frameNum)) = false
    rw [decide_eq_false hzero, Bool.and_false]
  · rfl
  · exact Bool.not_eq_true _ ▸ hstop

theorem Invariant.frameSection (h : Invariant numFrameToTrace s) (hpos : 0 < numFrameToTrace)
    (hcall : s.calls[i]? = some .frameSection)
    (hduration : s.calls.any Call.armsDuration = false)
    (hstop : .durationStop ∈ s.calls → s.shouldStopTrace numFrameToTrace = false) :
    Invariant numFrameToTrace ((s.onNewFrame numFrameToTrace).goTo i .done) := by
  obtain ⟨w, hholds, hslot⟩ := h.slot
  have hother := hholds.set_other (b := .done) hcall rfl rfl
  -- Where the section changes nothing, the slot stays as it is.
  have hsame (hunchanged : s.onNewFrame numFrameToTrace = s) :
      Invariant numFrameToTrace ((s.onNewFrame numFrameToTrace).goTo i .done) := by
    have hopen := open_onNewFrame (s := s) (i := i) .done hpos
    rw [hunchanged] at hopen ⊢
    exact h.of_slot rfl hother hslot rfl (fun _ hj => hj) trivial hopen
  cases hslot with
  | free hsettled htriggered htracing hreturned => exact hsame (onNewFrame_of_ne htriggered htracing)
  | named hsettled htriggered htracing hreturned hname =>
    exact hsame (onNewFrame_of_ne htriggered htracing)
  | armed hsettled hstate harming hpath hreturned =>
    have hopen := open_onNewFrame (s := s) (i := i) .done hpos
    rw [onNewFrame_of_triggered (s := s) hstate] at hopen ⊢
    exact h.of_slot rfl hother (slot_onTraceStart hsettled harming hpath hreturned) rfl
      (fun _ hj => hj) trivial hopen
  | @tracing arming t htracing hstate harming hpath hframes hle hreturned =>
    rw [onNewFrame_of_tracing (s := s) hstate] at hsame ⊢
    split_ifs at hsame ⊢ with hstops
    · have hge : numFrameToTrace.toNat ≤ (s.frameNum - s.traceStartFrame).toNat := by
        rw [State.shouldStopTrace, Bool.and_eq_true] at hstops
        simpa [UInt32.le_iff_toNat_le] using hstops.2
      have hexact : t.frames = numFrameToTrace.toNat := le_antisymm hle (hframes ▸ hge)
      exact h.of_slot rfl hother (slot_onTraceStop htracing harming hpath hexact hreturned) rfl
        (fun _ hj => hj) trivial (State.open_of_ne nofun)
    · exact hsame rfl
  | armedDuration _ _ _ harms _ =>
    cases hholds with
    | held hi _ _ =>
      rw [List.any_eq_false] at hduration
      exact absurd harms (hduration _ (List.mem_of_getElem? hi))
  | tracingDuration _ hstate _ _ _ =>
    cases hholds with
    | held hi _ _ =>
      have hnever := hstop (List.mem_of_getElem? hi)
      refine hsame ?_
      rw [onNewFrame_of_tracing (s := s) hstate, hnever]
      rfl

/-! ## Waits -/

theorem Invariant.returned_finished (h : Invariant numFrameToTrace s) (hstate : s.state = .finished) :
    ∀ j ∈ s.history.returned, j ∈ s.history.finishedTriggers := by
  obtain ⟨w, _, hslot⟩ := h.slot
  have hcore : s.core.state = .finished := hstate
  cases hslot with
  | free _ _ _ hreturned => exact hreturned
  | named _ _ _ hreturned _ => exact hreturned
  | armed _ hother => exact absurd (hcore.symm.trans hother) nofun
  | tracing _ hother => exact absurd (hcore.symm.trans hother) nofun
  | armedDuration _ _ _ _ hreturned => exact hreturned
  | tracingDuration _ _ _ _ hreturned => exact hreturned

theorem Invariant.waitForTraceDone {returned : List CallId} (h : Invariant numFrameToTrace s)
    (hcall : s.calls[i]? = some (.waitForTraceDone returned)) (hstate : s.state = .finished) :
    Invariant numFrameToTrace { s with
      calls := s.calls.set i .done
      history := { s.history with
        waits := s.history.waits ++ [⟨returned, s.history.finishedTriggers⟩] } } := by
  obtain ⟨w, hholds, hslot⟩ := h.slot
  have hfits := h.fits _ (List.mem_of_getElem? hcall)
  refine ⟨⟨w, hholds.set_other hcall rfl rfl, hslot⟩, ?_,
    h.isOpen.set hcall nofun nofun rfl rfl, ?_⟩
  · exact fits_set h.fits rfl (fun _ hj => hj) trivial
  · rw [List.forall_mem_append, List.forall_mem_singleton]
    exact ⟨h.waits, fun j hj => h.returned_finished hstate j (hfits j hj)⟩

/-! ## Every step -/

theorem invariant_next (hpos : 0 < numFrameToTrace) (h : Invariant numFrameToTrace s) (hcall : s.calls[i]? = some call)
    (hallowed : call.Allowed numFrameToTrace s) (hnext : s.next numFrameToTrace i call = some t) :
    Invariant numFrameToTrace t := by
  have hfits := h.fits _ (List.mem_of_getElem? hcall)
  cases call with
  | triggerTrace =>
    cases hnext
    split_ifs
    · exact h.goTo hcall rfl nofun rfl rfl rfl rfl trivial
    · exact h.goTo hcall rfl nofun rfl rfl rfl rfl trivial
  | frameNumber =>
    cases hnext
    exact h.goTo hcall rfl nofun rfl rfl rfl rfl trivial
  | framePath num =>
    cases hnext
    exact h.goTo hcall rfl nofun rfl rfl rfl rfl (congrArg (rdPath State.framePrefix) hallowed.symm)
  | frameSetPath num fullPath =>
    cases hnext
    exact h.goTo hcall rfl nofun rfl rfl rfl rfl hfits
  | frameSetName num fullPath =>
    cases hnext
    exact h.frameSetName hcall hallowed
  | frameArm fullPath =>
    cases hnext
    exact h.frameArm hcall
  | durationCount =>
    cases hnext
    exact h.goTo hcall rfl nofun rfl rfl rfl rfl trivial
  | durationNumber =>
    cases hnext
    exact h.goTo hcall rfl nofun rfl rfl rfl rfl trivial
  | durationPath num =>
    cases hnext
    exact h.goTo hcall rfl nofun rfl rfl rfl rfl trivial
  | durationSetName num fullPath =>
    cases hnext
    exact h.durationSetName hcall hallowed
  | durationArm fullPath =>
    cases hnext
    exact h.durationArm hcall
  | durationSetPath fullPath =>
    cases hnext
    exact h.durationSetPath hcall
  | durationStart =>
    cases hnext
    exact h.durationStart hcall
  | durationStop =>
    cases hnext
    exact h.durationStop hcall
  | newFrame =>
    cases hnext
    exact h.newFrame hcall hallowed
  | frameSection =>
    cases hnext
    exact h.frameSection hpos hcall hallowed.1 hallowed.2
  | waitForTraceDone returned =>
    rw [State.next, Option.ite_none_right_eq_some, Option.some.injEq] at hnext
    obtain ⟨hstate, rfl⟩ := hnext
    exact h.waitForTraceDone hcall hstate
  | done => cases hnext

theorem invariant_begin (h : Invariant numFrameToTrace s) (kind : CallKind) :
    Invariant numFrameToTrace { s with calls := s.calls ++ [s.start kind] } := by
  obtain ⟨w, hholds, hslot⟩ := h.slot
  have hstart : (s.start kind).isHolding = false ∧ (s.start kind).Fits s := by
    cases kind with
    | triggerTrace => exact ⟨rfl, trivial⟩
    | onNewFrame => exact ⟨rfl, trivial⟩
    | waitForTraceDone => exact ⟨rfl, fun _ hj => hj⟩
  have hopen : State.Open numFrameToTrace { s with calls := s.calls ++ [s.start kind] } := by
    intro hsection hduration
    exact h.isOpen (fun hmem => hsection (List.mem_append_left _ hmem))
      fun hmem => hduration (List.mem_append_left _ hmem)
  refine ⟨⟨w, hholds.append hstart.1, hslot⟩, ?_, hopen, h.waits⟩
  rw [List.forall_mem_append, List.forall_mem_singleton]
  have hmono {call : Call} (hfits : call.Fits s) := hfits.mono
    (t := { s with calls := s.calls ++ [s.start kind] }) fun _ hj => hj
  exact ⟨fun call hmem => hmono (h.fits call hmem), hmono hstart.2⟩

theorem invariant_step {a : Step} (hpos : 0 < numFrameToTrace) (h : Invariant numFrameToTrace s)
    (hallowed : Allowed numFrameToTrace s a) (hstep : step numFrameToTrace s a = some t) :
    Invariant numFrameToTrace t := by
  cases a with
  | begin kind =>
    cases hstep
    exact invariant_begin h kind
  | next i =>
    obtain ⟨call, hcall, hnext⟩ := Option.bind_eq_some_iff.mp hstep
    exact invariant_next hpos h hcall (hallowed call hcall) hnext

theorem invariant_start : Invariant numFrameToTrace {} where
  slot := by
    refine ⟨none, .free (by simp), .free ⟨rfl, rfl, ?_, ?_⟩ nofun nofun ?_⟩
    · simp [State.core]
    · simp [State.core]
    · simp [State.core]
  fits := by simp
  isOpen := State.open_of_ne nofun
  waits := by simp

theorem Invariant.lawful (h : Invariant numFrameToTrace s) : Lawful numFrameToTrace s.history where
  alternate := by
    obtain ⟨w, _, hslot⟩ := h.slot
    have hsignals : (Monitor.run switch false s.core.history.signals).isSome := by
      cases hslot with
      | free hsettled => rw [hsettled.signals]; rfl
      | named hsettled => rw [hsettled.signals]; rfl
      | armed hsettled => rw [hsettled.signals]; rfl
      | tracing htracing => rw [htracing.signals]; rfl
      | armedDuration hsettled => rw [hsettled.signals]; rfl
      | tracingDuration htracing => rw [htracing.signals]; rfl
    exact hsignals
  exact := by
    obtain ⟨w, _, hslot⟩ := h.slot
    have hexact : ∀ t ∈ s.core.history.traces, t.Exact numFrameToTrace := by
      cases hslot with
      | free hsettled => exact hsettled.exact
      | named hsettled => exact hsettled.exact
      | armed hsettled => exact hsettled.exact
      | tracing htracing _ _ _ _ hle => exact htracing.exact fun _ => hle
      | armedDuration hsettled => exact hsettled.exact
      | tracingDuration htracing _ hbyFrame =>
        exact htracing.exact fun hframe => absurd (hbyFrame.symm.trans hframe) Bool.false_ne_true
    exact hexact
  waits := h.waits

end Steps

/-! ## Runs -/

instance (numFrameToTrace : UInt32) (s : State) :
    ∀ call : Call, Decidable (call.Allowed numFrameToTrace s)
  | .framePath num => inferInstanceAs (Decidable (s.frameNum = num))
  | .frameSetName _ _ => inferInstanceAs (Decidable (s.busy = false))
  | .durationSetName _ _ => inferInstanceAs (Decidable (s.busy = false))
  | .newFrame => inferInstanceAs (Decidable (.frameSection ∉ s.calls))
  | .frameSection => inferInstanceAs
      (Decidable (s.calls.any Call.armsDuration = false ∧
        (.durationStop ∈ s.calls → s.shouldStopTrace numFrameToTrace = false)))
  | .triggerTrace | .frameNumber | .frameSetPath _ _ | .frameArm _ | .durationCount
  | .durationNumber | .durationPath _ | .durationArm _ | .durationSetPath _ | .durationStart
  | .durationStop | .waitForTraceDone _ | .done => .isTrue trivial

instance (numFrameToTrace : UInt32) (s : State) : ∀ a, Decidable (Allowed numFrameToTrace s a)
  | .begin _ => .isTrue trivial
  | .next i => match h : s.calls[i]? with
    | none => .isTrue fun _ hcall => by cases h.symm.trans hcall
    | some call => decidable_of_iff (call.Allowed numFrameToTrace s) (by simp [Allowed, h])

/-- **The protocol holds along every run whose steps come across no other call under way.** -/
theorem lawful_of_allowed {numFrameToTrace : UInt32} (hpos : 0 < numFrameToTrace)
    {run : List Step} {s : State}
    (hallowed : Monitor.Meets (step numFrameToTrace) (Allowed numFrameToTrace) {} run)
    (hrun : Monitor.run (step numFrameToTrace) {} run = some s) :
    Lawful numFrameToTrace s.history := by
  have hstep (s : State) (a : Step) (t : State) (h : Invariant numFrameToTrace s)
      (hallowed : Allowed numFrameToTrace s a) (hnext : step numFrameToTrace s a = some t) :
      Invariant numFrameToTrace t :=
    invariant_step hpos h hallowed hnext
  exact (Monitor.run_of_meets hstep invariant_start hallowed hrun).lawful

/-- A call that begins, and takes `n` steps. -/
def whole (kind : CallKind) (i : CallId) (n : ℕ) : List Step :=
  .begin kind :: List.replicate n (.next i)

/-- A frame, a trigger, the two frames of its trace, and a wait. -/
def oneTrace : List Step :=
  whole .onNewFrame 0 2 ++ whole .triggerTrace 1 6 ++ whole .onNewFrame 2 2 ++
    whole .onNewFrame 3 2 ++ whole .waitForTraceDone 4 1

theorem lawful_oneTrace : ∃ s, Monitor.run (step 1) {} oneTrace = some s ∧ Lawful 1 s.history ∧
    s.history.finishedTriggers = [1] ∧ s.history.waits = [⟨[1], [1]⟩] := by
  obtain ⟨s, hrun⟩ : ∃ s, Monitor.run (step 1) {} oneTrace = some s :=
    Option.isSome_iff_exists.mp (by decide +kernel)
  have hhistory : (Monitor.run (step 1) {} oneTrace).map (fun s => (s.history.finishedTriggers,
      s.history.waits)) = some ([1], [⟨[1], [1]⟩]) := by decide +kernel
  rw [hrun, Option.map_some, Option.some.injEq, Prod.mk.injEq] at hhistory
  exact ⟨s, hrun, lawful_of_allowed (by decide) (by decide +kernel) hrun, hhistory⟩

/-- A trigger, the first frame of its trace, another trigger, and a frame. -/
def overlappingTriggers : List Step :=
  whole .onNewFrame 0 2 ++ whole .triggerTrace 1 6 ++ whole .onNewFrame 2 2 ++
    whole .triggerTrace 3 6 ++ whole .onNewFrame 4 2

/-- The second trigger makes the manager switch the capture on a second time. -/
theorem overlappingTriggers_not_lawful :
    ∃ s, Monitor.run (step 1) {} overlappingTriggers = some s ∧ ¬ Lawful 1 s.history := by
  obtain ⟨s, hrun⟩ : ∃ s, Monitor.run (step 1) {} overlappingTriggers = some s :=
    Option.isSome_iff_exists.mp (by decide +kernel)
  have hsignals : (Monitor.run (step 1) {} overlappingTriggers).map (·.history.signals) =
      some [true, true] := by decide +kernel
  rw [hrun, Option.map_some, Option.some.injEq] at hsignals
  refine ⟨s, hrun, fun h => ?_⟩
  have halternate := h.alternate
  rw [hsignals] at halternate
  exact absurd halternate (by decide)

end Dive.AndroidTraceManager
