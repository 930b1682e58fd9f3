import Dive.Ui.CaptureFileManager

/-!
# The protocol of the capture file manager

* `Lawful`: what is asked of a log; `OneJob`, `NothingLost`: what is asked of a state.
* `Allowed`: the steps after which the statistics are those of the capture that is loaded.
* `Invariant`: what each step preserves, with **`invariant_next`**.
* **`protocol_of_allowed`**: along every run of such steps the protocol holds.
-/

namespace Dive.CaptureFileManager

/-! ## Logs -/

/-- The latest request. -/
def latest : List Entry → Option ℕ
  | [] => none
  | .requested id :: _ => some id
  | _ :: log => latest log

/-- The capture that was last reported as loaded. -/
def lastLoaded : List Entry → Option ℕ
  | [] => none
  | .finished result :: log =>
    if result.status = .kSuccess then some result.request.id else lastLoaded log
  | _ :: log => lastLoaded log

/-- There are statistics of the last gathering. -/
def hasStats : List Entry → Bool
  | [] => false
  | .gathered stats :: _ => stats.isSome
  | _ :: log => hasStats log

/-- There are statistics, and a capture has been reported as loaded since they were gathered. -/
def outdated : List Entry → Bool
  | [] => false
  | .gathered _ :: _ => false
  | .finished result :: log =>
    if result.status = .kSuccess then hasStats log else outdated log
  | _ :: log => outdated log

/-- **What is asked of an entry** after the entries of a log: a request is reported after its end and
only if no later request has come, and once; statistics are those of the capture that was last
reported as loaded. -/
def Fits (log : List Entry) : Entry → Prop
  | .requested id => ∀ other, latest log = some other → other < id
  | .completed result => .requested result.request.id ∈ log ∧
      ∀ other, .completed other ∈ log → other.request.id ≠ result.request.id
  | .finished result => log.head? = some (.completed result) ∧
      latest log = some result.request.id ∧
      ∀ other, .finished other ∈ log → other.request.id ≠ result.request.id
  | .returned (some id) => lastLoaded log = some id
  | _ => True

/-- The end of the latest request has come. -/
def awaitsReport (log : List Entry) (result : LoadFileResult) : Prop :=
  log.head? = some (.completed result) ∧ latest log = some result.request.id

/-- **A lawful log**: each entry fits, and the latest request is reported as soon as its end has
come. -/
def Lawful : List Entry → Prop
  | [] => True
  | entry :: log => Fits log entry ∧ (∀ result, awaitsReport log result → entry = .finished result) ∧
      Lawful log

/-! ## States -/

/-- The request that a job is for. -/
def Job.request? : Job → Option LoadFileRequest
  | .loadFile request => some request
  | .gatherTraceStats _ => none

def Event.request? : Event → Option LoadFileRequest
  | .loadFileDone result => some result.request
  | .gatherTraceStatsDone => none

/-- The requests that are pending, being loaded, or loaded and on their way back. -/
def State.outstanding (s : State) : List LoadFileRequest :=
  s.pendingRequest.toList ++ s.jobs.filterMap Job.request? ++ s.events.filterMap Event.request?

/-- **At most one job** is queued or running; in particular, no statistics are gathered while a load
writes the data core. -/
structure OneJob (s : State) : Prop where
  one : s.jobs.length ≤ 1
  apart : ∀ context request, .gatherTraceStats context ∈ s.jobs → .loadFile request ∉ s.jobs

/-- **No request is lost**: each one is outstanding, reported or superseded, and what is pending is
started after a job or an event that is there. -/
structure NothingLost (s : State) : Prop where
  kept : ∀ id < s.requests, (∃ request ∈ s.outstanding, request.id = id) ∨
    (∃ result, .finished result ∈ s.log ∧ result.request.id = id) ∨ id + 1 < s.requests
  started : s.pendingRequest ≠ none → s.jobs ≠ [] ∨ s.events ≠ []

/-- The protocol in a state. -/
structure Protocol (s : State) : Prop where
  oneJob : OneJob s
  nothingLost : NothingLost s
  lawful : Lawful s.log
  reported : ∀ result, ¬ awaitsReport s.log result

/-! ## The steps that are allowed -/

/-- **The step keeps the statistics up to date.** A gathering is started only while the events in
the data core, if there are any, are those of the capture last reported as loaded; the statistics
are asked for only if no capture has been reported as loaded since they were gathered. While the
manager works, both do nothing. -/
def Allowed (s : State) : Step → Prop
  | .gatherTraceStats =>
    s.working = false → s.metadata = none ∨ s.metadata = lastLoaded s.log
  | .fillCaptureStatsResult => s.working = false → outdated s.log = false
  | _ => True

instance (s : State) (step : Step) : Decidable (Allowed s step) := by
  unfold Allowed
  split <;> infer_instance

/-- The initial state. -/
def start : State := {}

/-! ## The invariant -/

/-- The one thing that the manager waits for. -/
inductive Active
  | queued (job : Job)
  | running (job : Job)
  | ended (event : Event)

def Active.job? : Active → Option Job
  | .queued job => some job
  | .running job => some job
  | .ended _ => none

/-- The request that is being loaded. -/
def Active.request? : Active → Option LoadFileRequest
  | .queued job => job.request?
  | .running job => job.request?
  | .ended event => event.request?

/-- The worker and its events. -/
def State.Waits (s : State) : Option Active → Prop
  | none => s.working = false ∧ s.queue = [] ∧ s.running = none ∧ s.events = [] ∧
      s.pendingRequest = none
  | some (.queued job) => s.working = true ∧ s.queue = [job] ∧ s.running = none ∧ s.events = []
  | some (.running job) => s.working = true ∧ s.queue = [] ∧ s.running = some job ∧ s.events = []
  | some (.ended event) => s.working = true ∧ s.queue = [] ∧ s.running = none ∧ s.events = [event]

/-- The requests that have come to their end are below `n`. -/
def EndedBelow (n : ℕ) (log : List Entry) : Prop :=
  ∀ result, .completed result ∈ log ∨ .finished result ∈ log → result.request.id < n

/-- What the log and the statistics keep to. -/
structure Recorded (s : State) : Prop where
  latest : latest s.log = if s.requests = 0 then none else some (s.requests - 1)
  requested : ∀ id < s.requests, .requested id ∈ s.log
  endedBelow : EndedBelow s.requests s.log
  noStats : hasStats s.log = false → s.captureStats = none
  stats : outdated s.log = false → s.captureStats = none ∨ s.captureStats = lastLoaded s.log
  lawful : Lawful s.log
  reported : ∀ result, ¬ awaitsReport s.log result

/-- **What each step preserves**, while the manager waits for `active`. -/
structure Invariant (s : State) (active : Option Active) : Prop extends Recorded s where
  waits : s.Waits active
  pending : ∀ request, s.pendingRequest = some request →
    request.id + 1 = s.requests ∧ EndedBelow request.id s.log
  current : ∀ request, active.bind Active.request? = some request →
    EndedBelow request.id s.log ∧ request.id < s.requests ∧
      (s.pendingRequest = none → request.id + 1 = s.requests) ∧
      (s.pendingRequest ≠ none → request.id + 1 < s.requests)
  reportedLatest : s.pendingRequest = none → active.bind Active.request? = none →
    s.requests ≠ 0 → ∃ result, .finished result ∈ s.log ∧ result.request.id + 1 = s.requests
  ready : ∀ context, active.bind Active.job? = some (.gatherTraceStats context) →
    s.metadata = none ∨ s.metadata = lastLoaded s.log

section Invariant

variable {s t : State} {active : Option Active} {log : List Entry} {n m : ℕ}
  {request : LoadFileRequest} {result : LoadFileResult}

theorem EndedBelow.mono (h : EndedBelow n log) (hle : n ≤ m) : EndedBelow m log :=
  fun result hresult => (h result hresult).trans_le hle

theorem EndedBelow.cons (h : EndedBelow n log) {entry : Entry}
    (hentry : ∀ result, entry = .completed result ∨ entry = .finished result →
      result.request.id < n) : EndedBelow n (entry :: log) := by
  intro result hresult
  rw [List.mem_cons, List.mem_cons] at hresult
  rcases hresult with (heq | hmem) | (heq | hmem)
  · exact hentry result (.inl heq.symm)
  · exact h result (.inl hmem)
  · exact hentry result (.inr heq.symm)
  · exact h result (.inr hmem)

theorem lawful_cons (h : Lawful log) (hreported : ∀ result, ¬ awaitsReport log result)
    {entry : Entry} (hfits : Fits log entry) : Lawful (entry :: log) :=
  ⟨hfits, fun result hawaits => absurd hawaits (hreported result), h⟩

theorem not_awaitsReport_cons {entry : Entry} (h : ∀ result, entry ≠ .completed result)
    (result : LoadFileResult) : ¬ awaitsReport (entry :: log) result := by
  intro hawaits
  exact h result (Option.some_inj.mp hawaits.1)

theorem invariant_start : Invariant start none where
  waits := ⟨rfl, rfl, rfl, rfl, rfl⟩
  latest := rfl
  requested := fun _ h => absurd h (Nat.not_lt_zero _)
  endedBelow := by simp [EndedBelow, start]
  pending := by simp [start]
  current := by simp
  reportedLatest := fun _ _ h => absurd rfl h
  ready := by simp
  noStats := fun _ => rfl
  stats := fun _ => .inl rfl
  lawful := trivial
  reported := by simp [awaitsReport, start]

theorem Recorded.congr (h : Recorded s) (hlog : t.log = s.log) (hrequests : t.requests = s.requests)
    (hstats : t.captureStats = s.captureStats) : Recorded t := by
  refine ⟨?_, ?_, ?_, ?_, ?_, ?_, ?_⟩
  · rw [hlog, hrequests]
    exact h.latest
  · rw [hlog, hrequests]
    exact h.requested
  · rw [hlog, hrequests]
    exact h.endedBelow
  · rw [hlog, hstats]
    exact h.noStats
  · rw [hlog, hstats]
    exact h.stats
  · rw [hlog]
    exact h.lawful
  · rw [hlog]
    exact h.reported

theorem startLoadFile_of_working (h : s.working = true) : s.startLoadFile = s := by
  rw [State.startLoadFile, h]

theorem Recorded.started (h : Recorded s) (hworking : s.working = false) (hqueue : s.queue = [])
    (hrunning : s.running = none) (hevents : s.events = [])
    (hpending : s.pendingRequest = some request) (hid : request.id + 1 = s.requests)
    (hbelow : EndedBelow request.id s.log) :
    Invariant s.startLoadFile (some (.queued (.loadFile request))) := by
  have hstart : s.startLoadFile =
      { s with pendingRequest := none, working := true, queue := [.loadFile request] } := by
    rw [State.startLoadFile, hworking, hpending, hqueue]
    rfl
  rw [hstart]
  refine ⟨h.congr rfl rfl rfl, ?_, ?_, ?_, ?_, ?_⟩
  · exact ⟨rfl, rfl, hrunning, hevents⟩
  · intro other hother
    cases hother
  · intro other hother
    obtain rfl : request = other := Option.some_inj.mp hother
    exact ⟨hbelow, by show request.id < s.requests; omega, fun _ => hid, fun hne => absurd rfl hne⟩
  · intro _ hnone
    cases hnone
  · intro context hcontext
    cases hcontext

theorem Invariant.loadFile (h : Invariant s active) (reference : String)
    (components : ComponentFilePaths) : ∃ active', Invariant (s.loadFile reference components) active' := by
  have hfits : Fits s.log (.requested s.requests) := by
    intro other hother
    rw [h.latest] at hother
    split_ifs at hother with hzero
    have heq := Option.some_inj.mp hother
    omega
  have hbelow : EndedBelow s.requests (.requested s.requests :: s.log) :=
    h.endedBelow.cons (by simp)
  have hrecorded : Recorded (s.replaceRequest reference components) := by
    refine ⟨by simp [State.replaceRequest, CaptureFileManager.latest], fun id hid => ?_, hbelow.mono (Nat.le_succ _),
      h.noStats, h.stats, lawful_cons h.lawful h.reported hfits, not_awaitsReport_cons (by simp)⟩
    rcases Nat.lt_succ_iff_lt_or_eq.mp hid with hlt | rfl
    · exact List.mem_cons_of_mem _ (h.requested id hlt)
    · exact List.mem_cons_self
  cases active with
  | none =>
    obtain ⟨hworking, hqueue, hrunning, hevents, -⟩ := h.waits
    exact ⟨_, hrecorded.started hworking hqueue hrunning hevents rfl rfl hbelow⟩
  | some active =>
    have hworking : (s.replaceRequest reference components).working = true := by
      cases active <;> exact h.waits.1
    refine ⟨some active, ?_⟩
    rw [State.loadFile, startLoadFile_of_working hworking]
    refine ⟨hrecorded, ?_, ?_, ?_, ?_, ?_⟩
    · cases active <;> exact h.waits
    · intro request hrequest
      obtain rfl := Option.some_inj.mp hrequest
      exact ⟨rfl, hbelow⟩
    · intro request hrequest
      obtain ⟨hended, hlt, -⟩ := h.current request hrequest
      refine ⟨hended.cons (by simp), Nat.lt_succ_of_lt hlt, fun hnone => absurd hnone (Option.some_ne_none _),
        fun _ => Nat.succ_lt_succ hlt⟩
    · intro hnone
      cases hnone
    · exact h.ready

theorem Invariant.gatherTraceStats (h : Invariant s active) (hallowed : Allowed s .gatherTraceStats) :
    ∃ active', Invariant s.gatherTraceStats active' := by
  rw [State.gatherTraceStats]
  split_ifs with hworking
  · exact ⟨active, h⟩
  · cases active with
    | some active => exact absurd (by cases active <;> exact h.waits.1) hworking
    | none =>
      obtain ⟨hidle, hqueue, hrunning, hevents, hpending⟩ := h.waits
      refine ⟨some (.queued (.gatherTraceStats s.captureFileContext)),
        h.congr rfl rfl rfl, ?_, ?_, ?_, ?_, ?_⟩
      · exact ⟨rfl, by rw [hqueue]; rfl, hrunning, hevents⟩
      · exact h.pending
      · intro request hrequest
        cases hrequest
      · exact fun _ _ => h.reportedLatest hpending rfl
      · exact fun _ _ => hallowed hidle

theorem Invariant.record (h : Invariant s active) {entry : Entry}
    (hentry : ∀ result, entry ≠ .completed result ∧ entry ≠ .finished result)
    (hfits : Fits s.log entry) (hlatest : latest (entry :: s.log) = latest s.log)
    (hloaded : lastLoaded (entry :: s.log) = lastLoaded s.log)
    (hhas : hasStats (entry :: s.log) = hasStats s.log)
    (houtdated : outdated (entry :: s.log) = outdated s.log) :
    Invariant (s.record entry) active := by
  have hbelow : ∀ n, EndedBelow n s.log → EndedBelow n (entry :: s.log) := fun n hn =>
    hn.cons fun result hresult => by
      rcases hresult with heq | heq
      · exact absurd heq (hentry result).1
      · exact absurd heq (hentry result).2
  refine ⟨⟨hlatest.trans h.latest, fun id hid => List.mem_cons_of_mem _ (h.requested id hid),
    hbelow _ h.endedBelow, fun hno => h.noStats (hhas ▸ hno), fun hno => ?_,
    lawful_cons h.lawful h.reported hfits, not_awaitsReport_cons fun result => (hentry result).1⟩,
    ?_, ?_, ?_, ?_, ?_⟩
  · show s.captureStats = none ∨ s.captureStats = lastLoaded (entry :: s.log)
    rw [hloaded]
    exact h.stats (houtdated ▸ hno)
  · cases active with
    | none => exact h.waits
    | some active => cases active <;> exact h.waits
  · intro request hrequest
    exact ⟨(h.pending request hrequest).1, hbelow _ (h.pending request hrequest).2⟩
  · intro request hrequest
    exact ⟨hbelow _ (h.current request hrequest).1, (h.current request hrequest).2⟩
  · intro hpending hnone hne
    obtain ⟨result, hmem, hid⟩ := h.reportedLatest hpending hnone hne
    exact ⟨result, List.mem_cons_of_mem _ hmem, hid⟩
  · intro context hcontext
    show s.metadata = none ∨ s.metadata = lastLoaded (entry :: s.log)
    rw [hloaded]
    exact h.ready context hcontext

theorem Invariant.fillCaptureStatsResult (h : Invariant s active)
    (hallowed : Allowed s .fillCaptureStatsResult) : Invariant s.fillCaptureStatsResult active := by
  rw [State.fillCaptureStatsResult]
  split_ifs with hworking
  · exact h.record (by simp) trivial rfl rfl rfl rfl
  · refine h.record (by simp) ?_ rfl rfl rfl rfl
    rcases h.stats (hallowed (by simpa using hworking)) with hnone | hloaded
    · rw [hnone]
      trivial
    · cases hstats : s.captureStats with
      | none => trivial
      | some id => exact (hstats ▸ hloaded).symm

/-! ### Events -/

theorem Invariant.onGatherTraceStatsDone (h : Invariant s (some (.ended .gatherTraceStatsDone))) :
    ∃ active', Invariant ({ s with events := [] } : State).onGatherTraceStatsDone active' := by
  obtain ⟨hworking, hqueue, hrunning, hevents⟩ := h.waits
  rcases Option.eq_none_or_eq_some s.pendingRequest with hpending | ⟨request, hpending⟩
  · have hidle : Invariant { s with events := [], working := false } none := by
      refine ⟨h.congr rfl rfl rfl, ⟨rfl, hqueue, hrunning, rfl, hpending⟩, ?_, ?_,
        ?_, ?_⟩
      · exact h.pending
      · intro request hrequest
        cases hrequest
      · exact h.reportedLatest
      · intro context hcontext
        cases hcontext
    refine ⟨none, ?_⟩
    rw [State.onGatherTraceStatsDone_none (s := { s with events := [] }) hpending]
    exact hidle.record (by simp) trivial rfl rfl rfl rfl
  · obtain ⟨hid, hbelow⟩ := h.pending request hpending
    have hrecorded : Recorded { s with events := [], working := false } :=
      h.congr rfl rfl rfl
    refine ⟨some (.queued (.loadFile request)), ?_⟩
    rw [State.onGatherTraceStatsDone_some (s := { s with events := [] }) hpending]
    exact hrecorded.started rfl hqueue hrunning rfl hpending hid hbelow

theorem Invariant.onLoadFileDone (h : Invariant s (some (.ended (.loadFileDone result)))) :
    ∃ active', Invariant (({ s with events := [] } : State).onLoadFileDone result) active' := by
  obtain ⟨hworking, hqueue, hrunning, hevents⟩ := h.waits
  obtain ⟨hended, hlt, hlatest, hsuperseded⟩ := h.current result.request rfl
  have hcompleted : Fits s.log (.completed result) :=
    ⟨h.requested _ hlt, fun other hmem => (hended other (.inl hmem)).ne⟩
  have hbelow : EndedBelow s.requests (.completed result :: s.log) := by
    refine h.endedBelow.cons fun other hother => ?_
    rcases hother with heq | heq
    · cases heq
      exact hlt
    · cases heq
  rcases Option.eq_none_or_eq_some s.pendingRequest with hpending | ⟨request, hpending⟩
  · have hid := hlatest hpending
    have hlog : latest s.log = some result.request.id := by
      rw [h.latest, if_neg (by omega)]
      congr 1
      omega
    have hfinished : Fits (.completed result :: s.log) (.finished result) := by
      refine ⟨rfl, hlog, fun other hother => ?_⟩
      rcases List.mem_cons.mp hother with heq | hmem
      · cases heq
      · exact (hended other (.inr hmem)).ne
    have hbelow' : EndedBelow s.requests (.finished result :: .completed result :: s.log) := by
      refine hbelow.cons fun other hother => ?_
      rcases hother with heq | heq
      · cases heq
      · cases heq
        exact hlt
    rw [State.onLoadFileDone_none (s := { s with events := [] }) hpending]
    refine ⟨none, ⟨h.latest, fun id hidlt => ?_, hbelow', h.noStats, fun hfresh => ?_, ?_,
      not_awaitsReport_cons (by simp)⟩, ⟨rfl, hqueue, hrunning, rfl, hpending⟩, ?_, ?_, ?_, ?_⟩
    · exact List.mem_cons_of_mem _ (List.mem_cons_of_mem _ (h.requested id hidlt))
    · have hfresh' : (if result.status = .kSuccess then hasStats s.log else outdated s.log) = false :=
        hfresh
      show s.captureStats = none ∨ s.captureStats =
        if result.status = .kSuccess then some result.request.id else lastLoaded s.log
      split_ifs at hfresh' ⊢ with hsuccess
      · exact .inl (h.noStats hfresh')
      · exact h.stats hfresh'
    · refine ⟨hfinished, fun other hother => ?_, lawful_cons h.lawful h.reported hcompleted⟩
      cases hother.1
      rfl
    · intro request hrequest
      exact absurd (hpending.symm.trans hrequest) (Option.some_ne_none _).symm
    · intro request hrequest
      cases hrequest
    · exact fun _ _ _ => ⟨result, List.mem_cons_self, hid⟩
    · intro context hcontext
      cases hcontext
  · obtain ⟨hid, hbelowRequest⟩ := h.pending request hpending
    have hbefore := hsuperseded (by rw [hpending]; exact Option.some_ne_none _)
    have hlog : latest s.log = some request.id := by
      rw [h.latest, if_neg (by omega)]
      congr 1
      omega
    have hbelow' : EndedBelow request.id (.completed result :: s.log) := by
      refine hbelowRequest.cons fun other hother => ?_
      rcases hother with heq | heq
      · cases heq
        omega
      · cases heq
    have hrecorded : Recorded
        (({ s with events := [], working := false } : State).record (.completed result)) := by
      refine ⟨h.latest, fun id hidlt => List.mem_cons_of_mem _ (h.requested id hidlt), hbelow,
        h.noStats, h.stats, lawful_cons h.lawful h.reported hcompleted, fun other hother => ?_⟩
      have hsame : result.request.id = request.id := by
        obtain rfl : result = other := Entry.completed.inj (Option.some_inj.mp hother.1)
        exact Option.some_inj.mp (hother.2.symm.trans hlog)
      omega
    refine ⟨some (.queued (.loadFile request)), ?_⟩
    rw [State.onLoadFileDone_some (s := { s with events := [] }) hpending]
    exact hrecorded.started rfl hqueue hrunning rfl hpending hid hbelow'

/-! ### The worker -/

theorem request_loadFileImpl (files : Files) (metadata : Metadata) (request : LoadFileRequest) :
    (loadFileImpl files metadata request).2.request = request := by
  unfold loadFileImpl loadFileFailed
  dsimp only
  repeat' split
  all_goals rfl

theorem Invariant.of_running (h : Invariant s active) {job : Job} (hjob : s.running = some job) :
    active = some (.running job) := by
  cases active with
  | none =>
    obtain ⟨-, -, hrunning, -⟩ := h.waits
    rw [hrunning] at hjob
    cases hjob
  | some active =>
    cases active with
    | running other =>
      obtain ⟨-, -, hrunning, -⟩ := h.waits
      rw [hrunning] at hjob
      rw [Option.some_inj.mp hjob]
    | queued other =>
      obtain ⟨-, -, hrunning, -⟩ := h.waits
      rw [hrunning] at hjob
      cases hjob
    | ended event =>
      obtain ⟨-, -, hrunning, -⟩ := h.waits
      rw [hrunning] at hjob
      cases hjob

theorem Invariant.of_events (h : Invariant s active) {event : Event} {events : List Event}
    (hevents : s.events = event :: events) : active = some (.ended event) ∧ events = [] := by
  cases active with
  | none =>
    obtain ⟨-, -, -, hnone, -⟩ := h.waits
    rw [hnone] at hevents
    cases hevents
  | some active =>
    cases active with
    | ended other =>
      obtain ⟨-, -, -, hone⟩ := h.waits
      rw [hone, List.cons.injEq] at hevents
      rw [hevents.1]
      exact ⟨rfl, hevents.2.symm⟩
    | queued other =>
      obtain ⟨-, -, -, hnone⟩ := h.waits
      rw [hnone] at hevents
      cases hevents
    | running other =>
      obtain ⟨-, -, -, hnone⟩ := h.waits
      rw [hnone] at hevents
      cases hevents

theorem Invariant.of_queue (h : Invariant s active) {job : Job} {queue : List Job}
    (hqueue : s.queue = job :: queue) : active = some (.queued job) ∧ queue = [] := by
  cases active with
  | none =>
    obtain ⟨-, hnone, -⟩ := h.waits
    rw [hnone] at hqueue
    cases hqueue
  | some active =>
    cases active with
    | queued other =>
      obtain ⟨-, hone, -⟩ := h.waits
      rw [hone, List.cons.injEq] at hqueue
      rw [hqueue.1]
      exact ⟨rfl, hqueue.2.symm⟩
    | running other =>
      obtain ⟨-, hnone, -⟩ := h.waits
      rw [hnone] at hqueue
      cases hqueue
    | ended event =>
      obtain ⟨-, hnone, -⟩ := h.waits
      rw [hnone] at hqueue
      cases hqueue

theorem Invariant.finishGather {context : Option ℕ}
    (h : Invariant s (some (.running (.gatherTraceStats context)))) {stats : CaptureStats}
    (hstats : stats = none ∨ stats = s.metadata) :
    Invariant
      { s with
        running := none
        captureStats := stats
        events := [.gatherTraceStatsDone]
        log := .gathered stats :: s.log } (some (.ended .gatherTraceStatsDone)) := by
  obtain ⟨hworking, hqueue, hrunning, hevents⟩ := h.waits
  have hbelow : ∀ n, EndedBelow n s.log → EndedBelow n (.gathered stats :: s.log) :=
    fun n hn => hn.cons (by simp)
  refine ⟨⟨h.latest, fun id hid => List.mem_cons_of_mem _ (h.requested id hid),
    hbelow _ h.endedBelow, fun hno => ?_, fun _ => ?_, lawful_cons h.lawful h.reported trivial,
    not_awaitsReport_cons (by simp)⟩, ⟨hworking, hqueue, rfl, rfl⟩, ?_, ?_, ?_, ?_⟩
  · have hnone : stats.isSome = false := hno
    exact Option.not_isSome_iff_eq_none.mp (by rw [hnone]; decide)
  · rcases hstats with hnone | hmetadata
    · exact .inl hnone
    · rw [hmetadata]
      exact h.ready context rfl
  · intro request hrequest
    exact ⟨(h.pending request hrequest).1, hbelow _ (h.pending request hrequest).2⟩
  · intro request hrequest
    cases hrequest
  · intro hpending _ hne
    obtain ⟨result, hmem, hid⟩ := h.reportedLatest hpending rfl hne
    exact ⟨result, List.mem_cons_of_mem _ hmem, hid⟩
  · intro other hother
    cases hother

/-- **Each step that is allowed preserves the invariant.** -/
theorem invariant_next {step : Step} (h : Invariant s active) (hallowed : Allowed s step)
    (hnext : next s step = some t) : ∃ active', Invariant t active' := by
  cases step with
  | loadFile reference components =>
    cases hnext
    exact h.loadFile reference components
  | gatherTraceStats =>
    cases hnext
    exact h.gatherTraceStats hallowed
  | fillCaptureStatsResult =>
    cases hnext
    exact ⟨active, h.fillCaptureStatsResult hallowed⟩
  | deliver =>
    cases hevents : s.events with
    | nil =>
      rw [next, hevents] at hnext
      cases hnext
    | cons event events =>
      obtain ⟨rfl, rfl⟩ := h.of_events hevents
      rw [next, hevents] at hnext
      cases event with
      | gatherTraceStatsDone =>
        cases hnext
        exact h.onGatherTraceStatsDone
      | loadFileDone result =>
        cases hnext
        exact h.onLoadFileDone
  | startJob =>
    cases hqueue : s.queue with
    | nil =>
      rw [next, hqueue] at hnext
      split at hnext
      · rename_i hcons
        cases hcons
      · cases hnext
    | cons job queue =>
      obtain ⟨rfl, rfl⟩ := h.of_queue hqueue
      obtain ⟨hworking, -, hrunning, hevents⟩ := h.waits
      rw [next, hqueue, hrunning] at hnext
      cases hnext
      exact ⟨some (.running job), h.congr rfl rfl rfl, ⟨hworking, rfl, rfl, hevents⟩, h.pending,
        h.current, h.reportedLatest, h.ready⟩
  | finishLoad files =>
    rw [next] at hnext
    split at hnext
    · rename_i request hrunning
      obtain rfl := h.of_running hrunning
      obtain ⟨hworking, hqueue, -, hevents⟩ := h.waits
      cases hnext
      refine ⟨some (.ended (.loadFileDone (loadFileImpl files s.metadata request).2)),
        h.congr rfl rfl rfl, ⟨hworking, hqueue, rfl, by rw [hevents]; rfl⟩, h.pending, ?_, ?_, ?_⟩
      · intro other hother
        obtain rfl := Option.some_inj.mp hother
        rw [request_loadFileImpl]
        exact h.current request rfl
      · intro _ hnone
        cases hnone
      · intro context hcontext
        cases hcontext
    · cases hnext
  | finishGather noticed =>
    rw [next] at hnext
    split at hnext
    · rename_i context hrunning
      obtain rfl := h.of_running hrunning
      obtain ⟨-, -, -, hevents⟩ := h.waits
      by_cases hunnoticed : noticed ∧ ¬ context.any (· ∈ s.cancelled)
      · rw [if_pos hunnoticed] at hnext
        cases hnext
      · rw [if_neg hunnoticed] at hnext
        cases hnext
        rw [hevents]
        refine ⟨_, h.finishGather ?_⟩
        cases noticed
        · exact .inr rfl
        · exact .inl rfl
    · cases hnext

/-! ## The protocol -/

theorem Invariant.jobs_eq (h : Invariant s active) :
    s.jobs = (active.bind Active.job?).toList := by
  cases active with
  | none =>
    obtain ⟨-, hqueue, hrunning, -⟩ := h.waits
    rw [State.jobs, hqueue, hrunning]
    rfl
  | some active =>
    cases active <;>
    · obtain ⟨-, hqueue, hrunning, -⟩ := h.waits
      rw [State.jobs, hqueue, hrunning]
      rfl

theorem Invariant.mem_outstanding (h : Invariant s active)
    (hrequest : active.bind Active.request? = some request) : request ∈ s.outstanding := by
  cases active with
  | none => cases hrequest
  | some active =>
    cases active <;>
    · obtain ⟨-, hqueue, hrunning, hevents⟩ := h.waits
      rw [State.outstanding, State.jobs, hqueue, hrunning, hevents]
      have hone := List.mem_filterMap.mpr ⟨_, List.mem_singleton_self _, hrequest⟩
      simp_all [Active.request?]

/-- **The invariant is enough for the protocol.** -/
theorem Invariant.protocol (h : Invariant s active) : Protocol s := by
  refine ⟨⟨?_, ?_⟩, ⟨?_, ?_⟩, h.lawful, h.reported⟩
  · rw [h.jobs_eq]
    cases active.bind Active.job? <;> simp
  · intro context request hgather hload
    rw [h.jobs_eq, Option.mem_toList] at hgather hload
    rw [hgather] at hload
    cases hload
  · intro id hid
    rcases Nat.lt_or_ge (id + 1) s.requests with hlt | hge
    · exact .inr (.inr hlt)
    · have hlatest : id + 1 = s.requests := by omega
      rcases Option.eq_none_or_eq_some s.pendingRequest with hpending | ⟨request, hpending⟩
      · rcases Option.eq_none_or_eq_some (active.bind Active.request?) with
          hcurrent | ⟨request, hcurrent⟩
        · obtain ⟨result, hmem, hresult⟩ := h.reportedLatest hpending hcurrent (by omega)
          exact .inr (.inl ⟨result, hmem, by omega⟩)
        · have hrequest := (h.current request hcurrent).2.2.1 hpending
          exact .inl ⟨request, h.mem_outstanding hcurrent, by omega⟩
      · have hrequest := (h.pending request hpending).1
        refine .inl ⟨request, ?_, by omega⟩
        rw [State.outstanding, hpending]
        exact List.mem_append_left _ (List.mem_append_left _ List.mem_cons_self)
  · intro hpending
    cases active with
    | none =>
      obtain ⟨-, -, -, -, hnone⟩ := h.waits
      exact absurd hnone hpending
    | some active =>
      cases active with
      | queued job =>
        left
        rw [h.jobs_eq]
        exact List.cons_ne_nil _ _
      | running job =>
        left
        rw [h.jobs_eq]
        exact List.cons_ne_nil _ _
      | ended event =>
        obtain ⟨-, -, -, hevents⟩ := h.waits
        right
        rw [hevents]
        exact List.cons_ne_nil _ _

end Invariant

/-- **The protocol holds along every run of allowed steps**, calls, jobs and events in any order. -/
theorem protocol_of_allowed {steps : List Step} {s : State}
    (hallowed : Monitor.Meets next Allowed start steps) (hrun : Monitor.run next start steps = some s) :
    Protocol s := by
  have hstep : ∀ s step t, (∃ active, Invariant s active) → Allowed s step → next s step = some t →
      ∃ active, Invariant t active :=
    fun _ _ _ ⟨_, h⟩ hallowed hnext => invariant_next h hallowed hnext
  obtain ⟨active, h⟩ := Monitor.run_of_meets hstep ⟨none, invariant_start⟩ hallowed hrun
  exact h.protocol

/-! ## Two captures -/

/-- Each file is there, and can be loaded. -/
def allFiles : Files := ⟨fun _ => true, fun _ _ => .kSuccess, fun _ => true⟩

/-- A load from its request to its report. -/
def loadSteps (file : String) : List Step :=
  [.loadFile file { pm4Rd := file }, .startJob, .finishLoad allFiles, .deliver]

def gatherSteps : List Step := [.gatherTraceStats, .startJob, .finishGather false, .deliver]

/-- The second request supersedes the first one. -/
def supersedingSteps : List Step :=
  [.loadFile "a.rd" { pm4Rd := "a.rd" }, .startJob, .finishLoad allFiles,
    .loadFile "b.rd" { pm4Rd := "b.rd" }, .deliver, .startJob, .finishLoad allFiles, .deliver]

theorem protocol_superseding : ∃ s, Monitor.run next start
      (supersedingSteps ++ gatherSteps ++ [.fillCaptureStatsResult]) = some s ∧
    s.log.head? = some (.returned (some 1)) ∧ Protocol s := by
  have hhead : (Monitor.run next start
      (supersedingSteps ++ gatherSteps ++ [.fillCaptureStatsResult])).map (fun s => s.log.head?) =
        some (some (.returned (some 1))) := by decide
  obtain ⟨s, hs, hlog⟩ := Option.map_eq_some_iff.mp hhead
  exact ⟨s, hs, hlog, protocol_of_allowed (by decide) hs⟩

/-- After the second capture has been loaded, the statistics are still those of the first one. -/
theorem outdated_statistics : ∃ s, Monitor.run next start
      (loadSteps "a.rd" ++ gatherSteps ++ loadSteps "b.rd" ++ [.fillCaptureStatsResult]) = some s ∧
    lastLoaded s.log = some 1 ∧ s.log.head? = some (.returned (some 0)) ∧ ¬ Protocol s := by
  have hends : (Monitor.run next start
      (loadSteps "a.rd" ++ gatherSteps ++ loadSteps "b.rd" ++ [.fillCaptureStatsResult])).map
        (fun s => (lastLoaded s.log, s.log.head?)) = some (some 1, some (.returned (some 0))) := by
    decide
  obtain ⟨s, hs, hlog⟩ := Option.map_eq_some_iff.mp hends
  obtain ⟨hloaded, hhead⟩ := Prod.mk.inj hlog
  refine ⟨s, hs, hloaded, hhead, fun hprotocol => ?_⟩
  obtain ⟨log, hcons⟩ := List.head?_eq_some_iff.mp hhead
  have hlawful := hprotocol.lawful
  rw [hcons] at hlawful hloaded
  have hfits : lastLoaded log = some 0 := hlawful.1
  have hlast : lastLoaded log = some 1 := hloaded
  rw [hfits] at hlast
  cases hlast

end Dive.CaptureFileManager
