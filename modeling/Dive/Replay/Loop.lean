import Dive.Replay.Balance

/-!
# Replaying a section in a loop

* `SettingUp`: the invariants of the setup phase; `settingUp_step`, `SettingUp.ready`.
* `ready_iterate`: an iteration leaves the state in which the next one may start.
* **`balanced_of_meets`**: in a run whose calls meet the condition each frame end is balanced.
-/

namespace Dive.DiveVulkanReplayConsumer

/-! ## The setup phase -/

section Setup

variable {c c' : Consumer} {call : Call} {id : HandleId}

/-- The invariants of the setup phase. -/
structure SettingUp (c : Consumer) : Prop where
  setupFinished : c.setupFinished = false
  wellNamed : WellNamed c.world
  table : FdTable c.world
  deferred : ∀ id, id ∈ c.deferredReleaseList ↔ .fence id ∈ c.world.live
  statuses : ∀ id, .fence id ∈ c.world.live → id ∈ c.fenceInitialStatus
  fds : c.fdsToCloseAtFrameEnd = ∅
  actions : c.frameEndActions = ∅

theorem insertAction_of_setup {a : Action} (h : c.setupFinished = false) :
    c.insertAction id a = c := if_neg fun hc => by simp [h] at hc

theorem eraseAction_of_setup (h : c.setupFinished = false) : c.eraseAction id = c :=
  if_neg fun hc => by simp [h] at hc

theorem FdTable.obtain {w : World} {fd : ℤ} (h : FdTable w) (hfd : w.opened fd = none) :
    FdTable (w.obtain fd) :=
  have hkept : Kept ∅ w w fun _ => none := Kept.start h
  (hkept.obtain (k := 0) rfl hfd).fdTable

theorem FdTable.importFd {w : World} {fd : ℤ} {replayed : Bool} (h : FdTable w) :
    FdTable (w.importFd fd replayed) :=
  have hkept : Kept ∅ w w fun _ => none := Kept.start h
  (hkept.importFd (by simp) (by simp)).fdTable

theorem SettingUp.world (h : SettingUp c) (w : World) (hnamed : WellNamed w)
    (hfds : w.opened = c.world.opened) (hnext : w.descriptors = c.world.descriptors)
    (hfences : ∀ id, .fence id ∈ w.live ↔ .fence id ∈ c.world.live)
    (exportable : Finset HandleId) :
    SettingUp { c with world := w, exportableFences := exportable } where
  setupFinished := h.setupFinished
  wellNamed := hnamed
  table := by
    obtain ⟨hnonneg, hbelow, hdistinct⟩ := h.table
    exact ⟨by rwa [hfds], by rwa [hfds, hnext], by rwa [hfds]⟩
  deferred := fun id => by rw [hfences, h.deferred]
  statuses := fun id hid => h.statuses id ((hfences id).mp hid)
  fds := h.fds
  actions := h.actions

theorem destroy_named {w : World} {x : Object} (h : WellNamed w) : WellNamed (w.destroy x) := by
  unfold World.destroy
  split_ifs
  · exact h.erase.of_eq rfl rfl
  · exact h.of_eq rfl rfl

theorem opened_destroy {w : World} {x : Object} :
    (w.destroy x).opened = w.opened ∧ (w.destroy x).descriptors = w.descriptors := by
  unfold World.destroy
  split_ifs <;> exact ⟨rfl, rfl⟩

theorem fence_mem_destroy {w : World} {x : Object} (hx : ∀ id, .fence id ∈ w.live → x ≠ .fence id) :
    .fence id ∈ (w.destroy x).live ↔ .fence id ∈ w.live := by
  unfold World.destroy
  split_ifs
  · simp only [World.record, Finset.mem_erase]
    exact ⟨fun h => h.2, fun h => ⟨(hx id h).symm, h⟩⟩
  · rfl

theorem create_of_failed {w : World} {x : Object} {replayed : Bool} (h : x.id = 0) :
    w.create x replayed = w := if_neg fun hc => hc.2 h

theorem SettingUp.createFence {fence : HandleId} {exportable : Bool} {status : FenceStatus}
    (h : SettingUp c) (hfresh : Fresh c.world fence)
    (hstep : c.processVkCreateFence fence true true exportable status = some c') :
    SettingUp c' := by
  obtain ⟨signaled, hsignaled⟩ := @setFence_eq
    { c.world with live := insert (.fence fence) c.world.live } fence status
  have hworld : (c.world.create (.fence fence) true).setFence fence status =
      { c.world with live := insert (.fence fence) c.world.live, signaled := signaled } := by
    rw [create_of_fresh (x := .fence fence) hfresh, hsignaled]
  have hc' : ∃ exportableFences, c' = { c with
      world := { c.world with live := insert (.fence fence) c.world.live, signaled := signaled }
      exportableFences := exportableFences
      deferredReleaseList := c.deferredReleaseList ++ [fence]
      fenceInitialStatus := c.fenceInitialStatus.insert fence .unsignaled } := by
    rw [Consumer.processVkCreateFence, Consumer.create] at hstep
    simp only [Bool.not_true, Bool.and_false, Bool.false_eq_true, if_false, if_true,
      Option.map_some, hworld, Option.some.injEq] at hstep
    cases exportable with
    | false => exact ⟨c.exportableFences, by simpa [h.setupFinished] using hstep.symm⟩
    | true => exact ⟨insert fence c.exportableFences, by
        simpa [h.setupFinished] using hstep.symm⟩
  obtain ⟨exportableFences, rfl⟩ := hc'
  refine ⟨h.setupFinished, ?_, ⟨h.table.1, h.table.2, h.table.3⟩, fun id => ?_, fun id hid => ?_,
    h.fds, h.actions⟩
  · exact (h.wellNamed.insert (x := .fence fence) hfresh).of_eq rfl rfl
  · rw [List.mem_append, List.mem_singleton, h.deferred, Finset.mem_insert, Object.fence.injEq]
    exact or_comm
  · rw [AList.mem_insert]
    rcases Finset.mem_insert.mp hid with hid | hid
    · exact .inl (Object.fence.inj hid)
    · exact .inr (h.statuses id hid)

theorem settingUp_step (h : SettingUp c) (hvalid : Valid c.world call)
    (hstep : step c call = some c') : SettingUp c' := by
  cases call with
  | create kind id captured replayed =>
    rw [step, processVkCreate_eq, insertAction_of_setup h.setupFinished] at hstep
    cases captured with
    | false =>
      cases hstep
      rw [create_of_failed (x := .resource kind id) hvalid]
      exact h
    | true =>
      cases replayed with
      | false => cases hstep
      | true =>
        cases hstep
        simp only [Valid, if_true] at hvalid
        rw [create_of_fresh (x := .resource kind id) hvalid]
        exact h.world _ (h.wellNamed.insert (x := .resource kind id) hvalid) rfl rfl (by simp) _
  | destroy kind id =>
    rw [step, processVkDestroy_eq, Consumer.destroyResource,
      eraseAction_of_setup h.setupFinished] at hstep
    cases hstep
    exact h.world _ (destroy_named h.wellNamed) opened_destroy.1 opened_destroy.2
      (fun i => fence_mem_destroy (by simp)) _
  | createFence fence captured replayed exportable status =>
    cases captured with
    | false =>
      cases hstep
      rw [create_of_failed (x := .fence fence) hvalid]
      cases replayed with
      | false => exact h
      | true =>
        obtain ⟨signaled, hsignaled⟩ := @setFence_eq c.world fence status
        simp only [if_true, if_false, Bool.false_eq_true, hsignaled]
        exact h.world { c.world with signaled := signaled } (h.wellNamed.of_eq rfl rfl) rfl rfl
          (fun _ => Iff.rfl) _
    | true =>
      cases replayed with
      | false => cases hstep
      | true =>
        simp only [Valid, if_true] at hvalid
        exact h.createFence hvalid hstep
  | destroyFence fence =>
    rw [step, Consumer.processVkDestroyFence] at hstep
    cases hstep
    split_ifs with hdeferred
    · exact h
    · have hfence : ∀ id, .fence id ∈ c.world.live → Object.fence fence ≠ .fence id := by
        rintro id hid heq
        cases heq
        exact hdeferred ((h.deferred fence).mpr hid)
      rw [eraseAction_of_setup h.setupFinished]
      exact h.world _ (destroy_named h.wellNamed) opened_destroy.1 opened_destroy.2
        (fun i => fence_mem_destroy hfence) _
  | setFence fence status =>
    obtain ⟨signaled, hsignaled⟩ := @setFence_eq c.world fence status
    rw [step, hsignaled] at hstep
    cases hstep
    exact h.world { c.world with signaled := signaled } (h.wellNamed.of_eq rfl rfl) rfl rfl
      (fun _ => Iff.rfl) _
  | beginCommandBuffer cb =>
    obtain ⟨-, hc'⟩ := Option.ite_none_right_eq_some.mp hstep
    rw [insertAction_of_setup h.setupFinished] at hc'
    cases hc'
    exact h
  | endCommandBuffer cb =>
    obtain ⟨-, hc'⟩ := Option.ite_none_right_eq_some.mp hstep
    rw [eraseAction_of_setup h.setupFinished] at hc'
    cases hc'
    exact h
  | resetCommandBuffer cb =>
    obtain ⟨-, hc'⟩ := Option.ite_none_right_eq_some.mp hstep
    cases hc'
    exact h.world (c.world.record (.reset cb)) (h.wellNamed.of_eq rfl rfl) rfl rfl
      (fun _ => Iff.rfl) _
  | allocateCommandBuffers pool buffers =>
    cases hstep
    exact h.world _ (h.wellNamed.allocate hvalid) rfl rfl (fun _ => Iff.rfl) _
  | freeCommandBuffers buffers =>
    cases hstep
    exact h.world _ h.wellNamed.free rfl rfl (fun _ => Iff.rfl) _
  | destroyCommandPool pool =>
    cases hstep
    exact h.world _ h.wellNamed.free rfl rfl (fun _ => Iff.rfl) _
  | getFenceFd fence captureFd captured replayFd =>
    rw [step, Consumer.processVkGetFenceFdKHR] at hstep
    have hrecord : ∀ fd, (({ c with world := c.world.obtain fd } : Consumer).recordFd captureFd fd) =
        { c with world := c.world.obtain fd } := fun fd =>
      if_neg (by simp [h.setupFinished])
    have hopened : c.world.opened (replayFd.getD (-1)) = none := by
      cases replayFd with
      | some fd => exact AList.lookup_eq_none.mpr (hvalid fd rfl)
      | none =>
        show c.world.opened (-1) = none
        cases hopen : c.world.opened (-1) with
        | none => rfl
        | some n => exact absurd (h.table.nonneg _ n hopen) (by decide)
    have hobtained : SettingUp { c with world := c.world.obtain (replayFd.getD (-1)) } :=
      ⟨h.setupFinished, h.wellNamed.of_eq live_obtain commandBuffers_obtain,
        h.table.obtain hopened, by simpa using h.deferred, by simpa using h.statuses, h.fds,
        h.actions⟩
    dsimp only at hstep
    simp only [hrecord] at hstep
    split_ifs at hstep <;> cases hstep <;> exact hobtained
  | importFenceFd fd replayed =>
    cases hstep
    rw [Consumer.processVkImportFenceFdKHR, if_neg (by simp [h.setupFinished])]
    exact ⟨h.setupFinished, h.wellNamed.of_eq live_importFd commandBuffers_importFd,
      h.table.importFd, by simpa using h.deferred, by simpa using h.statuses, h.fds, h.actions⟩

theorem lookup_foldl_insert {α : Type*} (g : HandleId → α) : ∀ (keys : List HandleId)
    (m : AList fun _ : HandleId => α),
      (keys.foldl (fun m i => m.insert i (g i)) m).lookup id =
        if id ∈ keys then some (g id) else m.lookup id
  | [], m => by simp
  | i :: keys, m => by
    rw [List.foldl_cons, lookup_foldl_insert g keys]
    by_cases hid : id = i
    · subst hid
      simp
    · simp [hid]

/-- **The state after the setup is that of the first iteration.** -/
theorem SettingUp.ready (h : SettingUp c) :
    Ready c.world c.processStateEndMarker.fenceInitialStatus c.processStateEndMarker ∧
      ∀ id, .fence id ∈ c.world.live →
        c.processStateEndMarker.fenceInitialStatus.lookup id = some (c.world.status id) := by
  refine ⟨⟨⟨rfl, (Finset.union_empty _).symm, Finset.disjoint_empty_right _, h.wellNamed,
    fun cb hcb => absurd hcb (Finset.notMem_empty cb), fun id a => ?_, h.deferred⟩, rfl, h.fds,
    h.table⟩, fun id hid => ?_⟩
  · rw [Consumer.processStateEndMarker, h.actions, AList.lookup_empty]
    simp
  · rw [Consumer.processStateEndMarker, lookup_foldl_insert,
      if_pos (AList.mem_keys.mp (h.statuses id hid))]

end Setup

/-! ## The loop -/

section Loop

variable {start before marker : Consumer} {calls frame : List Call} {iterations : List Iteration}
  {o : Outstanding}

theorem run_callStep : ∀ (calls : List Call) (c : Consumer) (o : Outstanding),
    Monitor.run callStep (c, o) calls =
      (Monitor.run step c calls).map (·, calls.foldl Outstanding.after o)
  | [], c, o => rfl
  | call :: calls, c, o => by
    rw [Monitor.run, Monitor.run, callStep]
    cases hstep : step c call with
    | none => rfl
    | some c' => exact run_callStep calls c' (o.after call)

theorem follows_run {initial : AList fun _ : HandleId => FenceStatus}
    (h : Ready start.world initial before) (hframe : MeetsAll start.world before frame)
    (hrun : Monitor.run callStep (before, {}) frame = some (marker, o)) :
    Follows start.world before.world initial (marker, o) :=
  Monitor.run_of_meets (fun _ _ _ hs hp => follows_step hs hp.1 hp.2) h.follows hframe hrun

theorem ready_iterate {initial : AList fun _ : HandleId => FenceStatus} {c c' : Consumer}
    {i : Iteration}
    (hinitial : ∀ id, .fence id ∈ start.world.live →
      initial.lookup id = some (start.world.status id))
    (h : Ready start.world initial c) (hmeets : MeetsAll start.world c i.calls)
    (hc' : iterate c i = some c') : Ready start.world initial c' := by
  obtain ⟨marker, hrun, hend⟩ := Option.bind_eq_some_iff.mp hc'
  have hfollows := follows_run h hmeets (by rw [run_callStep, hrun]; rfl)
  obtain ⟨c'', hc'', -, hready⟩ := frameEnd_spec hfollows hinitial i.first
  rw [hend] at hc''
  cases hc''
  exact hready

theorem ready_setup (hcalls : Monitor.Meets step (fun c => Valid c.world) {} calls)
    (hstart : setup calls = some start) :
    Ready start.world start.fenceInitialStatus start ∧
      ∀ id, .fence id ∈ start.world.live →
        start.fenceInitialStatus.lookup id = some (start.world.status id) := by
  obtain ⟨c, hrun, rfl⟩ := Option.map_eq_some_iff.mp hstart
  have hinit : SettingUp {} := by
    refine ⟨rfl, ⟨by simp, by simp, AList.notMem_empty 0⟩, ⟨?_, ?_, ?_⟩, by simp, by simp, rfl,
      rfl⟩ <;> simp [World.opened]
  exact (Monitor.run_of_meets (fun _ _ _ hs hp => settingUp_step hs hp) hinit hcalls hrun).ready

/-- **Each frame end of a loop is balanced**, when the calls of every iteration meet the
condition. -/
theorem balanced_of_meets (hcalls : Monitor.Meets step (fun c => Valid c.world) {} calls)
    (hstart : setup calls = some start)
    (hmeets : Monitor.Meets iterate (fun c i => MeetsAll start.world c i.calls) start iterations)
    (hbefore : Monitor.run iterate start iterations = some before)
    (hframe : MeetsAll start.world before frame)
    (hrun : Monitor.run callStep (before, {}) frame = some (marker, o))
    (first : List HandleId → ℕ) :
    before.world.live = start.world.live ∧
      ∃ after, processFrameEndMarker first marker = some after ∧
        Balanced start.world before.world marker.world after.world o := by
  obtain ⟨hready, hinitial⟩ := ready_setup hcalls hstart
  have hbefore' : Ready start.world start.fenceInitialStatus before :=
    Monitor.run_of_meets (fun _ _ _ h hm hc' => ready_iterate hinitial h hm hc') hready hmeets
      hbefore
  obtain ⟨after, hafter, hbalanced, -⟩ :=
    frameEnd_spec (follows_run hbefore' hframe hrun) hinitial first
  refine ⟨?_, after, hafter, hbalanced⟩
  have hlive := hbefore'.pending.live
  rwa [Finset.union_empty] at hlive

/-- A section with an image view that it destroys, and an image, a command buffer and an exported
descriptor that it leaves. -/
def leavingSection : List Call := [
  .create .image 8 true true, .create .imageView 9 true true, .destroy .imageView 9,
  .beginCommandBuffer 7, .getFenceFd 6 30 true (some 40), .setFence 6 .unsignaled]

def leavingSetup : List Call := [
  .create .buffer 5 true true, .createFence 6 true true true .signaled,
  .allocateCommandBuffers 1 [7]]

/-- The second iteration of that section. -/
theorem balanced_leavingSection : ∃ start before marker after o,
    setup leavingSetup = some start ∧
    Monitor.run iterate start [⟨leavingSection, fun _ => 0⟩] = some before ∧
    Monitor.run callStep (before, {}) leavingSection = some (marker, o) ∧
    processFrameEndMarker (fun _ => 0) marker = some after ∧
    Balanced start.world before.world marker.world after.world o := by
  -- the states are reached, and they meet the conditions
  have hbefore : ∀ start ∈ setup leavingSetup,
      (Monitor.run iterate start [⟨leavingSection, fun _ => 0⟩]).isSome := by decide +kernel
  have hrun : ∀ start ∈ setup leavingSetup,
      ∀ before ∈ Monitor.run iterate start [⟨leavingSection, fun _ => 0⟩],
        (Monitor.run callStep (before, {}) leavingSection).isSome := by decide +kernel
  have hmeets : ∀ start ∈ setup leavingSetup,
      Monitor.Meets iterate (fun c i => MeetsAll start.world c i.calls) start
        [⟨leavingSection, fun _ => 0⟩] := by decide +kernel
  have hframe : ∀ start ∈ setup leavingSetup,
      ∀ before ∈ Monitor.run iterate start [⟨leavingSection, fun _ => 0⟩],
        MeetsAll start.world before leavingSection := by decide +kernel
  obtain ⟨start, hs⟩ := Option.isSome_iff_exists.mp
    (show (setup leavingSetup).isSome by decide +kernel)
  obtain ⟨before, hb⟩ := Option.isSome_iff_exists.mp (hbefore start hs)
  obtain ⟨⟨marker, o⟩, hm⟩ := Option.isSome_iff_exists.mp (hrun start hs before hb)
  obtain ⟨-, after, hafter, hbalanced⟩ := balanced_of_meets (by decide +kernel) hs
    (hmeets start hs) hb (hframe start hs before hb) hm fun _ => 0
  exact ⟨start, before, marker, after, o, hs, hb, hm, hafter, hbalanced⟩

/-- A section that destroys a buffer of the setup: the replay has lost it at the first frame end. -/
theorem destroyedBuffer_not_balanced : ∃ start marker after o,
    Monitor.Meets step (fun c => Valid c.world) {} [.create .buffer 5 true true] ∧
    setup [.create .buffer 5 true true] = some start ∧
    Monitor.Meets callStep (fun s => Valid s.1.world) (start, {}) [.destroy .buffer 5] ∧
    Monitor.run callStep (start, {}) [.destroy .buffer 5] = some (marker, o) ∧
    processFrameEndMarker (fun _ => 0) marker = some after ∧
    ¬ Balanced start.world start.world marker.world after.world o := by
  refine ⟨_, _, _, _, by decide, rfl, by decide, rfl, rfl, fun h => ?_⟩
  exact h.keepsSetup (.resource .buffer 5) (by decide) (by decide)

end Loop

end Dive.DiveVulkanReplayConsumer
