import Dive.Replay.Pending

/-!
# The end of a frame

* **`Balanced`**: what the end of a frame does about what is outstanding.
* `KeepsBalance`: the condition on one call.
* `follows_step`: such a call keeps the invariants of a section.
* `restoreFences_spec`, `Kept.closeAll`, `drain_spec`: the parts of the end of a frame.
* **`frameEnd_spec`**: it is balanced.
-/

namespace Dive.DiveVulkanReplayConsumer

/-! ## The balance -/

/-- A call, with what is outstanding. -/
def callStep (s : Consumer × Outstanding) (call : Call) : Option (Consumer × Outstanding) :=
  (step s.1 call).map (·, s.2.after call)

/-- The end of a frame: `start` is the state after the setup, `before` the one before the section,
`marker` the one at the end marker, where `o` is outstanding. -/
structure Balanced (start before marker after : World) (o : Outstanding) : Prop where
  destroyed : ∀ x ∈ o.objects, (since marker after).count (.destroyed x) = 1
  reset : ∀ cb ∈ o.begun, cb ∈ marker.commandBuffers → .reset cb ∈ since marker after
  present : ∀ x, .missing x ∉ since marker after
  keepsSetup : ∀ x ∈ start.live, .destroyed x ∉ since before after
  statuses : ∀ id, .fence id ∈ start.live → after.status id = start.status id
  /-- The descriptors of the iteration. -/
  closed : ∀ n, before.descriptors ≤ n → n < after.descriptors →
    (since before after).count (.closed n) + (since before after).count (.handedOver n) = 1
  noBadClose : ∀ fd, .badClose fd ∉ since before after
  live : after.live = start.live

/-- The condition on a call of a section, where `base` are the objects of the setup. -/
def KeepsBalance (base : Finset Object) (s : Consumer × Outstanding) : Call → Prop
  | .create _ _ captured _ => captured = true
  | .createFence _ captured replayed _ _ => replayed = true → captured = true
  | .destroy kind id => .resource kind id ∉ base
  | .freeCommandBuffers buffers => ∀ cb ∈ buffers, cb ∉ s.2.begun
  | .destroyCommandPool pool => ∀ cb ∈ s.2.begun, s.1.world.commandBuffers.lookup cb ≠ some pool
  | .importFenceFd fd replayed =>
    (∀ v ∈ s.1.records fd, v = fd ∧ replayed = true) ∧
      (replayed = true → ∀ k ∈ s.1.fdsToCloseAtFrameEnd.keys, s.1.records k = some fd → k = fd)
  | _ => True

instance (base : Finset Object) (s : Consumer × Outstanding) :
    DecidablePred (KeepsBalance base s)
  | .create _ _ captured _ => inferInstanceAs (Decidable (captured = true))
  | .createFence _ captured replayed _ _ =>
    inferInstanceAs (Decidable (replayed = true → captured = true))
  | .destroy kind id => inferInstanceAs (Decidable (.resource kind id ∉ base))
  | .freeCommandBuffers buffers => inferInstanceAs (Decidable (∀ cb ∈ buffers, cb ∉ s.2.begun))
  | .destroyCommandPool pool =>
    inferInstanceAs (Decidable (∀ cb ∈ s.2.begun, s.1.world.commandBuffers.lookup cb ≠ some pool))
  | .importFenceFd fd replayed =>
    inferInstanceAs (Decidable ((∀ v ∈ s.1.records fd, v = fd ∧ replayed = true) ∧
      (replayed = true → ∀ k ∈ s.1.fdsToCloseAtFrameEnd.keys, s.1.records k = some fd → k = fd)))
  | .destroyFence _ | .setFence _ _ | .beginCommandBuffer _ | .endCommandBuffer _
  | .resetCommandBuffer _ | .allocateCommandBuffers _ _ | .getFenceFd _ _ _ _ =>
    inferInstanceAs (Decidable True)

/-- The section is replayed from `c` with calls that meet the condition. -/
def MeetsAll (start : World) (c : Consumer) (calls : List Call) : Prop :=
  Monitor.Meets callStep (fun s call => Valid s.1.world call ∧ KeepsBalance start.live s call)
    (c, {}) calls

instance (start : World) (c : Consumer) (calls : List Call) :
    Decidable (MeetsAll start c calls) := by unfold MeetsAll; infer_instance

/-! ## The functions of a section -/

section Functions

variable {c : Consumer} {id : HandleId} {captured replayed : Bool} {x : Object}

theorem processVkCreate_eq (kind : ResourceKind) :
    c.processVkCreate id captured replayed kind =
      if captured && !replayed then none
      else some { c.insertAction id (.destroy (.resource kind id)) with
        world := c.world.create (.resource kind id) replayed } := by
  have hworld : ∀ a, (c.insertAction id a).world = c.world := by
    intro a
    unfold Consumer.insertAction
    split_ifs <;> rfl
  have hset : ∀ a w, ({ c with world := w } : Consumer).insertAction id a =
      { c.insertAction id a with world := w } := by
    intro a w
    unfold Consumer.insertAction
    split_ifs <;> rfl
  -- the action comes before the superclass for images, after it for buffers
  have hbefore : ∀ a x, (c.insertAction id a).create x captured replayed =
      if captured && !replayed then none
      else some { c.insertAction id a with world := c.world.create x replayed } := by
    intro a x
    rw [Consumer.create, hworld]
  have hafter : ∀ a x, (c.create x captured replayed).map (·.insertAction id a) =
      if captured && !replayed then none
      else some { c.insertAction id a with world := c.world.create x replayed } := by
    intro a x
    rw [Consumer.create]
    split_ifs
    · rfl
    · exact congrArg some (hset a _)
  cases kind with
  | image => exact hbefore _ _
  | imageView => exact hbefore _ _
  | buffer => exact hafter _ _
  | bufferView => exact hafter _ _

theorem processVkDestroy_eq (kind : ResourceKind) :
    c.processVkDestroy id kind = c.destroyResource kind id := by
  cases kind <;> rfl

theorem setFence_eq {w : World} (fence : HandleId) (status : FenceStatus) :
    ∃ signaled, w.setFence fence status = { w with signaled := signaled } := by
  cases status with
  | signaled => exact ⟨_, rfl⟩
  | unsignaled => exact ⟨_, rfl⟩

theorem processVkCreateFence_eq {fence : HandleId} (exportable : Bool) (status : FenceStatus)
    (hs : c.setupFinished = true) (hid : fence ∉ c.frameEndActions) :
    ∃ exportableFences, c.processVkCreateFence fence true true exportable status =
      some { c with
        world := (c.world.create (.fence fence) true).setFence fence status
        exportableFences := exportableFences
        frameEndActions := c.frameEndActions.insert fence (.destroy (.fence fence)) } := by
  cases exportable with
  | false => exact ⟨c.exportableFences, by
      simp [Consumer.processVkCreateFence, Consumer.create, Consumer.insertAction, hs, hid]⟩
  | true => exact ⟨insert fence c.exportableFences, by
      simp [Consumer.processVkCreateFence, Consumer.create, Consumer.insertAction, hs, hid]⟩

theorem create_of_fresh {w : World} (h : Fresh w x.id) :
    w.create x true = { w with live := insert x w.live } := if_pos ⟨rfl, h.1⟩

end Functions

/-! ## A section -/

section Section

/-- The invariants of a section that starts at `before`. -/
structure Follows (start before : World) (initial : AList fun _ : HandleId => FenceStatus)
    (s : Consumer × Outstanding) : Prop where
  pending : Pending start.live s.1 s.2
  initial : s.1.fenceInitialStatus = initial
  kept : Kept start.live before s.1.world s.1.records

variable {start before : World} {initial : AList fun _ : HandleId => FenceStatus} {c : Consumer}
  {o : Outstanding} {x : Object} {cb : HandleId}

namespace Follows

theorem created (h : Follows start before initial (c, o)) (hx : Fresh c.world x.id)
    (signaled exportable : Finset HandleId) :
    Follows start before initial
      ({ c with
        world := { c.world with live := insert x c.world.live, signaled := signaled }
        exportableFences := exportable
        frameEndActions := c.frameEndActions.insert x.id (.destroy x) },
      { o with objects := insert x o.objects }) where
  pending := h.pending.create hx rfl rfl rfl rfl rfl
  initial := h.initial
  kept := h.kept.quiet (List.append_nil _).symm (by simp) rfl rfl

theorem destroyed (h : Follows start before initial (c, o)) (hx : x ∉ start.live)
    (hvalid : x.id = 0 ∨ x ∈ c.world.live) (exportable : Finset HandleId) :
    Follows start before initial
      ({ c with
        world := c.world.destroy x
        exportableFences := exportable
        frameEndActions := c.frameEndActions.erase x.id },
      { o with objects := o.objects.erase x }) := by
  unfold World.destroy
  split_ifs with hlive
  · have hmem : x ∈ o.objects := by
      have hp : Pending start.live c o := h.pending
      rw [hp.live] at hlive
      exact (Finset.mem_union.mp hlive).resolve_left hx
    exact ⟨h.pending.destroy hmem rfl rfl rfl (fun _ => rfl) rfl, h.initial,
      h.kept.quiet rfl (by simpa [Effect.Quiet] using hx) rfl rfl⟩
  · -- the null handle has no action
    have h0 : x.id = 0 := hvalid.resolve_right hlive
    have hp : Pending start.live c o := h.pending
    have hnone : x.id ∉ c.frameEndActions := by
      rw [h0]
      exact hp.notMem_actions (fun y hy => (hp.wellNamed.named y (hp.mem_live hy)).1)
        fun hb => hp.wellNamed.buffers (hp.begun 0 hb)
    have hlookup : ∀ i, (c.frameEndActions.erase x.id).lookup i = c.frameEndActions.lookup i := by
      intro i
      by_cases hi : i = x.id
      · rw [hi, AList.lookup_erase, AList.lookup_eq_none.mpr hnone]
      · rw [AList.lookup_erase_ne hi]
    rw [Finset.erase_eq_of_notMem fun hmem => hlive (hp.mem_live hmem)]
    exact ⟨hp.of_eq rfl rfl rfl hlookup rfl, h.initial,
      h.kept.quiet rfl (by simp [Effect.Quiet]) rfl rfl⟩

theorem unchanged (h : Follows start before initial (c, o)) (signaled : Finset HandleId) :
    Follows start before initial ({ c with world := { c.world with signaled := signaled } }, o) :=
  ⟨h.pending.of_eq rfl rfl rfl (fun _ => rfl) rfl, h.initial,
    h.kept.quiet (List.append_nil _).symm (by simp) rfl rfl⟩

theorem buffers (h : Follows start before initial (c, o))
    {buffers : AList fun _ : HandleId => HandleId}
    (hnamed : WellNamed { c.world with commandBuffers := buffers })
    (hbegun : ∀ cb ∈ o.begun, cb ∈ buffers) :
    Follows start before initial
      ({ c with world := { c.world with commandBuffers := buffers } }, o) :=
  ⟨h.pending.buffers rfl hnamed hbegun, h.initial,
    h.kept.quiet (List.append_nil _).symm (by simp) rfl rfl⟩

theorem recordFd {captureFd fd : ℤ} (h : Follows start before initial (c, o))
    (hfd : fd ∉ c.world.openFds) :
    Follows start before initial
      (({ c with world := c.world.obtain fd } : Consumer).recordFd captureFd fd, o) := by
  have hp : Pending start.live c o := h.pending
  have hclosed : c.world.opened fd = none := AList.lookup_eq_none.mpr hfd
  rw [Consumer.recordFd, if_pos hp.setupFinished]
  cases hk : c.fdsToCloseAtFrameEnd.lookup captureFd with
  | none =>
    refine ⟨hp.of_eq rfl live_obtain commandBuffers_obtain (fun _ => rfl) rfl, h.initial, ?_⟩
    rw [records_insert (c := c) rfl]
    exact h.kept.obtain (records_of_lookup_none hk) hclosed
  | some old =>
    refine ⟨hp.of_eq rfl (live_close.trans live_obtain)
      (commandBuffers_close.trans commandBuffers_obtain) (fun _ => rfl) rfl, h.initial, ?_⟩
    rw [records_insert (c := c) rfl]
    exact h.kept.replace (records_of_lookup hk) hclosed

theorem began (h : Follows start before initial (c, o)) (hcb : cb ∈ c.world.commandBuffers) :
    Follows start before initial
      (c.insertAction cb (.reset cb), { o with begun := insert cb o.begun }) := by
  have hp : Pending start.live c o := h.pending
  refine ⟨hp.began hcb, ?_, ?_⟩ <;> unfold Consumer.insertAction <;> split_ifs
  · exact h.initial
  · exact h.initial
  · exact h.kept
  · exact h.kept

theorem getFenceFd {fence : HandleId} {captureFd : ℤ} {captured : Bool} {replayFd : Option ℤ}
    {c' : Consumer} (h : Follows start before initial (c, o))
    (hvalid : ∀ fd ∈ replayFd, fd ∉ c.world.openFds)
    (hc' : c.processVkGetFenceFdKHR fence captureFd captured replayFd = some c') :
    Follows start before initial (c', o) := by
  -- a failure leaves `-1`, which is no descriptor
  have hfd : replayFd.getD (-1) ∉ c.world.openFds := by
    cases replayFd with
    | some fd => exact hvalid fd rfl
    | none => exact AList.lookup_eq_none.mp (h.kept.opened_neg (by decide))
  rw [Consumer.processVkGetFenceFdKHR] at hc'
  dsimp only at hc'
  split_ifs at hc' with hwarn hnone hfatal
  · cases hc'
    obtain rfl := Option.isNone_iff_eq_none.mp hnone
    exact h
  · cases hc'
    exact h.recordFd hfd
  · cases hc'
    exact h.recordFd hfd

theorem importFd {fd : ℤ} {replayed : Bool} (h : Follows start before initial (c, o))
    (hsame : ∀ v, c.records fd = some v → v = fd ∧ replayed = true)
    (honly : replayed = true → ∀ k, c.records k = some fd → k = fd) :
    Follows start before initial (c.processVkImportFenceFdKHR fd replayed, o) := by
  have hp : Pending start.live c o := h.pending
  rw [Consumer.processVkImportFenceFdKHR, if_pos hp.setupFinished]
  refine ⟨hp.of_eq rfl live_importFd commandBuffers_importFd (fun _ => rfl) rfl, h.initial, ?_⟩
  rw [records_erase (c := c) rfl]
  exact h.kept.importFd hsame honly

end Follows

/-- **A call that meets the condition keeps the invariants.** -/
theorem follows_step {s s' : Consumer × Outstanding} {call : Call}
    (h : Follows start before initial s) (hvalid : Valid s.1.world call)
    (hkeeps : KeepsBalance start.live s call) (hstep : callStep s call = some s') :
    Follows start before initial s' := by
  obtain ⟨c, o⟩ := s
  have hp : Pending start.live c o := h.pending
  obtain ⟨c', hc', rfl⟩ := Option.map_eq_some_iff.mp hstep
  cases call with
  | create kind id captured replayed =>
    simp only [KeepsBalance] at hkeeps
    subst hkeeps
    simp only [Valid, if_true] at hvalid
    rw [step, processVkCreate_eq] at hc'
    cases replayed with
    | false => cases hc'
    | true =>
      cases hc'
      rw [create_of_fresh (x := .resource kind id) hvalid,
        insertAction_of_notMem hp.setupFinished (hp.notMem_of_fresh hvalid)]
      exact h.created (x := .resource kind id) hvalid _ _
  | destroy kind id =>
    rw [step, processVkDestroy_eq, Consumer.destroyResource, Consumer.eraseAction,
      if_pos hp.setupFinished] at hc'
    cases hc'
    exact h.destroyed (x := .resource kind id) hkeeps hvalid _
  | createFence fence captured replayed exportable status =>
    cases replayed with
    | false =>
      cases captured with
      | true => cases hc'
      | false =>
        cases hc'
        exact h
    | true =>
      obtain rfl : captured = true := hkeeps rfl
      simp only [Valid, if_true] at hvalid
      obtain ⟨exportableFences, hfence⟩ := processVkCreateFence_eq exportable status
        hp.setupFinished (hp.notMem_of_fresh hvalid)
      rw [step, hfence, create_of_fresh (x := .fence fence) hvalid] at hc'
      obtain ⟨signaled, hsignaled⟩ := setFence_eq
        (w := { c.world with live := insert (.fence fence) c.world.live }) fence status
      rw [hsignaled] at hc'
      cases hc'
      exact h.created (x := .fence fence) hvalid _ _
  | destroyFence fence =>
    rw [step, Consumer.processVkDestroyFence] at hc'
    cases hc'
    split_ifs with hdeferred
    · -- a fence of the setup stays
      have hnew := Finset.disjoint_left.mp hp.new ((hp.deferred fence).mp hdeferred)
      rw [Outstanding.after, Finset.erase_eq_of_notMem hnew]
      exact h
    · rw [Consumer.eraseAction, if_pos hp.setupFinished]
      exact h.destroyed (x := .fence fence) (fun hc => hdeferred ((hp.deferred fence).mpr hc))
        hvalid _
  | setFence fence status =>
    cases hc'
    cases status with
    | unsignaled => exact h.unchanged _
    | signaled => exact h.unchanged _
  | beginCommandBuffer cb =>
    obtain ⟨hcb, hc'⟩ := Option.ite_none_right_eq_some.mp hc'
    cases hc'
    exact h.began hcb
  | endCommandBuffer cb =>
    obtain ⟨hcb, hc'⟩ := Option.ite_none_right_eq_some.mp hc'
    rw [Consumer.eraseAction, if_pos hp.setupFinished] at hc'
    cases hc'
    exact ⟨hp.ended hcb rfl rfl rfl rfl rfl, h.initial, h.kept⟩
  | resetCommandBuffer cb =>
    obtain ⟨hcb, hc'⟩ := Option.ite_none_right_eq_some.mp hc'
    cases hc'
    exact ⟨hp.of_eq rfl rfl rfl (fun _ => rfl) rfl, h.initial,
      h.kept.quiet rfl (by simp [Effect.Quiet]) rfl rfl⟩
  | allocateCommandBuffers pool buffers =>
    cases hc'
    exact h.buffers (hp.wellNamed.allocate hvalid) fun cb hcb =>
      mem_foldl_insert.mpr (.inr (hp.begun cb hcb))
  | freeCommandBuffers buffers =>
    cases hc'
    exact h.buffers hp.wellNamed.free fun cb hcb =>
      mem_foldl_erase.mpr ⟨fun hc => hkeeps cb hc hcb, hp.begun cb hcb⟩
  | destroyCommandPool pool =>
    cases hc'
    refine h.buffers hp.wellNamed.free fun cb hcb =>
      mem_foldl_erase.mpr ⟨fun hc => hkeeps cb hcb ?_, hp.begun cb hcb⟩
    exact of_decide_eq_true (List.mem_filter.mp hc).2
  | getFenceFd fence captureFd captured replayFd =>
    exact h.getFenceFd hvalid hc'
  | importFenceFd fd replayed =>
    cases hc'
    refine h.importFd hkeeps.1 fun hreplayed k hk => hkeeps.2 hreplayed k ?_ hk
    have hv : c.fdsToCloseAtFrameEnd.lookup k = some fd := (Option.filter_eq_some_iff.mp hk).1
    exact AList.mem_keys.mp (AList.lookup_isSome.mp (by rw [hv]; rfl))

end Section

/-! ## The loop over the actions -/

section Drain

variable {base : Finset Object} {c c' : Consumer} {o : Outstanding} {x : Object} {cb : HandleId}

/-- The actions of `o` were performed, with the effects `l`. -/
structure Drained (base : Finset Object) (c c' : Consumer) (o : Outstanding) (l : List Effect) :
    Prop where
  pending : Pending base c' {}
  world : c'.world = { c.world with live := base, log := c.world.log ++ l }
  destroyed : ∀ x, l.count (.destroyed x) = if x ∈ o.objects then 1 else 0
  reset : ∀ cb ∈ o.begun, .reset cb ∈ l
  quiet : ∀ e ∈ l, e.Quiet base ∧ ∀ x, e ≠ .missing x
  rest : c'.fenceInitialStatus = c.fenceInitialStatus ∧
    c'.fdsToCloseAtFrameEnd = c.fdsToCloseAtFrameEnd

theorem perform_destroy (h : Pending base c o) (hx : x ∈ o.objects) :
    ∃ c', ({ c with frameEndActions := c.frameEndActions.erase x.id } : Consumer).perform
        (.destroy x) = some c' ∧
      Pending base c' { o with objects := o.objects.erase x } ∧
      c'.world = { c.world with
        live := c.world.live.erase x, log := c.world.log ++ [.destroyed x] } ∧
      c'.frameEndActions.keys = c.frameEndActions.keys.erase x.id ∧
      c'.fenceInitialStatus = c.fenceInitialStatus ∧
      c'.fdsToCloseAtFrameEnd = c.fdsToCloseAtFrameEnd := by
  have hworld : c.world.destroy x = { c.world with
      live := c.world.live.erase x, log := c.world.log ++ [.destroyed x] } :=
    if_pos (h.mem_live hx)
  -- the action tries to erase itself
  have htwice : ∀ i, ((c.frameEndActions.erase x.id).erase x.id).lookup i =
      (c.frameEndActions.erase x.id).lookup i := by
    intro i
    by_cases hi : i = x.id
    · rw [hi, AList.lookup_erase, AList.lookup_erase]
    · rw [AList.lookup_erase_ne hi]
  have hkeys : ((c.frameEndActions.erase x.id).erase x.id).keys =
      c.frameEndActions.keys.erase x.id := by
    rw [AList.keys_erase, AList.keys_erase,
      List.erase_of_not_mem (List.Nodup.not_mem_erase c.frameEndActions.keys_nodup)]
  have hlive : (c.world.destroy x).live = c.world.live.erase x := by rw [hworld]
  have hbuffers : (c.world.destroy x).commandBuffers = c.world.commandBuffers := by rw [hworld]
  cases x with
  | resource kind id =>
    refine ⟨_, rfl, ?_⟩
    rw [processVkDestroy_eq, Consumer.destroyResource, Consumer.eraseAction,
      if_pos (show ({ c with frameEndActions := c.frameEndActions.erase id } :
        Consumer).setupFinished = true from h.setupFinished)]
    exact ⟨h.destroy hx rfl hlive hbuffers htwice rfl, hworld, hkeys, rfl, rfl⟩
  | fence id =>
    have hdeferred : id ∉ c.deferredReleaseList := fun hc =>
      Finset.disjoint_left.mp h.new ((h.deferred id).mp hc) hx
    refine ⟨_, rfl, ?_⟩
    rw [Consumer.processVkDestroyFence, if_neg (show id ∉ ({ c with
      frameEndActions := c.frameEndActions.erase id } : Consumer).deferredReleaseList from
        hdeferred), Consumer.eraseAction, if_pos (show ({ c with
          frameEndActions := c.frameEndActions.erase id } : Consumer).setupFinished = true from
            h.setupFinished)]
    exact ⟨h.destroy hx rfl hlive hbuffers htwice rfl, hworld, hkeys, rfl, rfl⟩

theorem perform_reset (h : Pending base c o) (hcb : cb ∈ o.begun) :
    ∃ c', ({ c with frameEndActions := c.frameEndActions.erase cb } : Consumer).perform
        (.reset cb) = some c' ∧
      Pending base c' { o with begun := o.begun.erase cb } ∧
      c'.world = { c.world with log := c.world.log ++ [.reset cb] } ∧
      c'.frameEndActions.keys = c.frameEndActions.keys.erase cb ∧
      c'.fenceInitialStatus = c.fenceInitialStatus ∧
      c'.fdsToCloseAtFrameEnd = c.fdsToCloseAtFrameEnd := by
  have hallocated := h.begun cb hcb
  refine ⟨_, if_pos hallocated, ?_, rfl, AList.keys_erase _ _, rfl, rfl⟩
  exact h.ended hallocated rfl rfl rfl rfl rfl

theorem Pending.drained (h : Pending base c o) (hkeys : c.frameEndActions.keys = []) :
    Drained base c c o [] := by
  have hnone : ∀ i, c.frameEndActions.lookup i = none := fun i =>
    AList.lookup_eq_none.mpr (by rw [AList.mem_keys, hkeys]; exact List.not_mem_nil)
  have hobjects : o.objects = ∅ := by
    refine Finset.eq_empty_of_forall_notMem fun x hx => ?_
    have := (h.actions x.id _).mpr (.inl ⟨x, hx, rfl, rfl⟩)
    rw [hnone] at this
    cases this
  have hbegun : o.begun = ∅ := by
    refine Finset.eq_empty_of_forall_notMem fun cb hcb => ?_
    have := (h.actions cb _).mpr (.inr ⟨hcb, rfl⟩)
    rw [hnone] at this
    cases this
  obtain ⟨objects, begun⟩ := o
  subst hobjects hbegun
  refine ⟨h, ?_, by simp, by simp, by simp, rfl, rfl⟩
  have hlive := h.live
  rw [Finset.union_empty] at hlive
  rw [List.append_nil, ← hlive]

theorem Drained.destroy {l : List Effect} {c₁ : Consumer} (hx : x ∈ o.objects)
    (hbase : x ∉ base) (h : Drained base c₁ c' { o with objects := o.objects.erase x } l)
    (hworld : c₁.world = { c.world with
      live := c.world.live.erase x, log := c.world.log ++ [.destroyed x] })
    (hrest : c₁.fenceInitialStatus = c.fenceInitialStatus ∧
      c₁.fdsToCloseAtFrameEnd = c.fdsToCloseAtFrameEnd) :
    Drained base c c' o (.destroyed x :: l) where
  pending := h.pending
  world := by
    rw [h.world, hworld]
    simp
  destroyed := fun y => by
    rw [List.count_cons, h.destroyed y]
    by_cases hyx : y = x
    · simp [hyx, hx]
    · simp [hyx, Ne.symm hyx]
  reset := fun cb hcb => List.mem_cons_of_mem _ (h.reset cb hcb)
  quiet := by
    rintro e he
    rcases List.mem_cons.mp he with rfl | he
    · exact ⟨hbase, fun y => by simp⟩
    · exact h.quiet e he
  rest := ⟨h.rest.1.trans hrest.1, h.rest.2.trans hrest.2⟩

theorem Drained.resetCommandBuffer {l : List Effect} {c₁ : Consumer}
    (h : Drained base c₁ c' { o with begun := o.begun.erase cb } l)
    (hworld : c₁.world = { c.world with log := c.world.log ++ [.reset cb] })
    (hrest : c₁.fenceInitialStatus = c.fenceInitialStatus ∧
      c₁.fdsToCloseAtFrameEnd = c.fdsToCloseAtFrameEnd) :
    Drained base c c' o (.reset cb :: l) where
  pending := h.pending
  world := by
    rw [h.world, hworld]
    simp
  destroyed := fun y => by
    rw [List.count_cons, h.destroyed y]
    simp
  reset := fun i hi => by
    by_cases hicb : i = cb
    · exact hicb ▸ List.mem_cons_self
    · exact List.mem_cons_of_mem _ (h.reset i (Finset.mem_erase.mpr ⟨hicb, hi⟩))
  quiet := by
    rintro e he
    rcases List.mem_cons.mp he with rfl | he
    · exact ⟨trivial, fun y => by simp⟩
    · exact h.quiet e he
  rest := ⟨h.rest.1.trans hrest.1, h.rest.2.trans hrest.2⟩

/-- **The loop performs each action once.** -/
theorem drain_spec (first : List HandleId → ℕ) : ∀ {n : ℕ} {c : Consumer} {o : Outstanding},
    Pending base c o → c.frameEndActions.keys.length = n →
      ∃ c' l, drain first n c = some c' ∧ Drained base c c' o l
  | 0, c, o, h, hn => ⟨c, [], rfl, h.drained (List.length_eq_zero_iff.mp hn)⟩
  | n + 1, c, o, h, hn => by
    have hpos : first c.frameEndActions.keys % c.frameEndActions.keys.length <
        c.frameEndActions.keys.length := Nat.mod_lt _ (by omega)
    obtain ⟨id, hid⟩ : ∃ id, c.frameEndActions.keys[first c.frameEndActions.keys %
        c.frameEndActions.keys.length]? = some id := ⟨_, List.getElem?_eq_getElem hpos⟩
    have hmem : id ∈ c.frameEndActions := AList.mem_keys.mpr (List.mem_of_getElem? hid)
    obtain ⟨a, ha⟩ := Option.isSome_iff_exists.mp (AList.lookup_isSome.mpr hmem)
    have hlength : (c.frameEndActions.keys.erase id).length = n := by
      rw [List.length_erase_of_mem (AList.mem_keys.mp hmem), hn, Nat.add_sub_cancel]
    rw [drain]
    simp only [hid, ha]
    rcases (h.actions id a).mp ha with ⟨x, hx, rfl, rfl⟩ | ⟨hcb, rfl⟩
    · obtain ⟨c₁, hperform, hpending, hworld, hkeys, hrest⟩ := perform_destroy h hx
      obtain ⟨c', l, hdrain, hdrained⟩ := drain_spec first hpending (hkeys ▸ hlength)
      have hbase : x ∉ base := fun hb => Finset.disjoint_left.mp h.new hb hx
      exact ⟨c', _, by rw [hperform, Option.bind_some, hdrain],
        hdrained.destroy hx hbase hworld hrest⟩
    · obtain ⟨c₁, hperform, hpending, hworld, hkeys, hrest⟩ := perform_reset h hcb
      obtain ⟨c', l, hdrain, hdrained⟩ := drain_spec first hpending (hkeys ▸ hlength)
      exact ⟨c', _, by rw [hperform, Option.bind_some, hdrain],
        hdrained.resetCommandBuffer hworld hrest⟩

end Drain

/-! ## The setup fences -/

section Fences

variable {w : World} {r : World × List HandleId} {fence id : HandleId} {status : FenceStatus}

theorem status_setFence : (w.setFence fence status).status id =
    if id = fence then status else w.status id := by
  by_cases hid : id = fence
  · subst hid
    cases status <;> simp [World.setFence, World.status]
  · cases status <;> simp [World.setFence, World.status, hid]

theorem status_foldl_unsignaled : ∀ {l : List HandleId} {w : World},
    (l.foldl (fun w fence => w.setFence fence .unsignaled) w).status id =
      if id ∈ l then .unsignaled else w.status id
  | [], w => by simp
  | fence :: l, w => by
    rw [List.foldl_cons, status_foldl_unsignaled, status_setFence]
    by_cases hid : id = fence <;> simp [hid]

/-- The status that a fence has once the list is reset. -/
def finalStatus (r : World × List HandleId) (id : HandleId) : FenceStatus :=
  if id ∈ r.2 then .unsignaled else r.1.status id

theorem finalStatus_restoreFence (hfence : fence ∉ r.2) :
    finalStatus (Consumer.restoreFence r fence status) id =
      if id = fence then status else finalStatus r id := by
  unfold Consumer.restoreFence
  by_cases hstatus : r.1.status fence = status
  · rw [if_pos hstatus]
    split_ifs with hid
    · rw [hid, finalStatus, if_neg hfence, hstatus]
    · rfl
  · rw [if_neg hstatus]
    cases status with
    | signaled =>
      simp only [finalStatus, status_setFence]
      by_cases hid : id = fence
      · rw [hid, if_neg hfence]
        simp
      · simp [hid]
    | unsignaled =>
      simp only [finalStatus, List.mem_append, List.mem_singleton]
      by_cases hid : id = fence <;> simp [hid]

theorem mem_restoreFence (h : id ∈ (Consumer.restoreFence r fence status).2) :
    id ∈ r.2 ∨ id = fence := by
  unfold Consumer.restoreFence at h
  split_ifs at h with hstatus
  · exact .inl h
  · cases status with
    | signaled => exact .inl h
    | unsignaled => simpa using h

theorem finalStatus_foldl : ∀ {es : List (Sigma fun _ : HandleId => FenceStatus)}
    {r : World × List HandleId}, es.NodupKeys → (∀ e ∈ es, e.1 ∉ r.2) →
      finalStatus (es.foldl (fun r e => Consumer.restoreFence r e.1 e.2) r) id =
        (es.dlookup id).getD (finalStatus r id)
  | [], r, _, _ => by simp
  | ⟨fence, status⟩ :: es, r, hnodup, hmem => by
    obtain ⟨hfence, hnodup⟩ := List.nodupKeys_cons.mp hnodup
    have hrest : ∀ e ∈ es, e.1 ∉ (Consumer.restoreFence r fence status).2 := by
      intro e he hc
      rcases mem_restoreFence hc with hc | hc
      · exact hmem e (List.mem_cons_of_mem _ he) hc
      · have hkey := List.mem_keys_of_mem he
        rw [hc] at hkey
        exact hfence hkey
    rw [List.foldl_cons, finalStatus_foldl hnodup hrest,
      finalStatus_restoreFence (hmem _ List.mem_cons_self)]
    by_cases hid : id = fence
    · subst hid
      rw [List.dlookup_cons_eq, if_pos rfl, List.dlookup_eq_none.mpr hfence]
      rfl
    · rw [List.dlookup_cons_ne _ _ hid, if_neg hid]

theorem foldl_unsignaled_eq : ∀ {l : List HandleId} {w : World},
    ∃ signaled, l.foldl (fun w fence => w.setFence fence .unsignaled) w =
      { w with signaled := signaled }
  | [], w => ⟨w.signaled, rfl⟩
  | fence :: l, w => by
    obtain ⟨signaled, h⟩ := foldl_unsignaled_eq (l := l) (w := w.setFence fence .unsignaled)
    exact ⟨signaled, h⟩

theorem foldl_restoreFence_eq : ∀ (es : List (Sigma fun _ : HandleId => FenceStatus))
    (r : World × List HandleId), ∃ signaled,
      (es.foldl (fun r e => Consumer.restoreFence r e.1 e.2) r).1 =
        { r.1 with signaled := signaled }
  | [], r => ⟨r.1.signaled, rfl⟩
  | e :: es, r => by
    obtain ⟨signaled, h⟩ := foldl_restoreFence_eq es (Consumer.restoreFence r e.1 e.2)
    refine ⟨signaled, h.trans ?_⟩
    unfold Consumer.restoreFence
    split_ifs
    · rfl
    · split <;> rfl

/-- **Each fence of the table has its initial status again**, and nothing else changes. -/
theorem restoreFences_spec (c : Consumer) :
    (∃ signaled, c.restoreFences = { c.world with signaled := signaled }) ∧
      ∀ id status, c.fenceInitialStatus.lookup id = some status →
        c.restoreFences.status id = status := by
  constructor
  · obtain ⟨signaled, h⟩ := foldl_unsignaled_eq
      (l := (c.fenceInitialStatus.foldl Consumer.restoreFence (c.world, [])).2)
      (w := (c.fenceInitialStatus.foldl Consumer.restoreFence (c.world, [])).1)
    obtain ⟨signaled', h'⟩ := foldl_restoreFence_eq c.fenceInitialStatus.entries (c.world, [])
    refine ⟨signaled, h.trans ?_⟩
    rw [AList.foldl, h']
  · intro id status hid
    have hfold : finalStatus (c.fenceInitialStatus.foldl Consumer.restoreFence (c.world, [])) id =
        (c.fenceInitialStatus.entries.dlookup id).getD (finalStatus (c.world, []) id) :=
      finalStatus_foldl c.fenceInitialStatus.nodupKeys fun _ _ => List.not_mem_nil
    rw [show c.fenceInitialStatus.entries.dlookup id = some status from hid] at hfold
    rw [Consumer.restoreFences, status_foldl_unsignaled]
    exact hfold

end Fences

/-! ## The descriptors that are left -/

section Close

variable {base : Finset Object} {before w : World}

/-- What `close` logs. -/
def Effect.OfClose : Effect → Prop
  | .closed _ => True
  | .badClose _ => True
  | _ => False

theorem close_log (w : World) (fd : ℤ) :
    ∃ l, (w.close fd).log = w.log ++ l ∧ ∀ e ∈ l, e.OfClose := by
  unfold World.close
  split
  · exact ⟨_, rfl, by simp [Effect.OfClose]⟩
  · split_ifs
    · exact ⟨_, rfl, by simp [Effect.OfClose]⟩
    · exact ⟨[], (List.append_nil _).symm, by simp⟩

theorem foldl_close_log : ∀ (es : List (Sigma fun _ : ℤ => ℤ)) (w : World),
    ∃ l, (es.foldl (fun w e => w.close e.2) w).log = w.log ++ l ∧ ∀ e ∈ l, e.OfClose
  | [], w => ⟨[], (List.append_nil _).symm, by simp⟩
  | e :: es, w => by
    obtain ⟨l, hl, hclose⟩ := close_log w e.2
    obtain ⟨l', hl', hclose'⟩ := foldl_close_log es (w.close e.2)
    refine ⟨l ++ l', ?_, fun e' he' => (List.mem_append.mp he').elim (hclose e') (hclose' e')⟩
    rw [List.foldl_cons, hl', hl, List.append_assoc]

theorem foldl_close_eq : ∀ (es : List (Sigma fun _ : ℤ => ℤ)) (w : World),
    (es.foldl (fun w e => w.close e.2) w).live = w.live ∧
      (es.foldl (fun w e => w.close e.2) w).commandBuffers = w.commandBuffers ∧
      (es.foldl (fun w e => w.close e.2) w).signaled = w.signaled
  | [], w => ⟨rfl, rfl, rfl⟩
  | e :: es, w => by
    obtain ⟨hlive, hbuffers, hsignaled⟩ := foldl_close_eq es (w.close e.2)
    refine ⟨hlive.trans live_close, hbuffers.trans commandBuffers_close, hsignaled.trans ?_⟩
    unfold World.close
    split
    · rfl
    · split_ifs <;> rfl

/-- **The numbers on record are closed**, and nothing is left on record. -/
theorem Kept.closeAll : ∀ {es : List (Sigma fun _ : ℤ => ℤ)} {w : World} {record : ℤ → Option ℤ},
    es.NodupKeys → (∀ k, record k = (es.dlookup k).filter (0 ≤ ·)) → Kept base before w record →
      Kept base before (es.foldl (fun w e => w.close e.2) w) fun _ => none
  | [], w, record, _, hrecord, h => by
    have hnone : record = fun _ => none := by
      funext k
      rw [hrecord k]
      rfl
    rwa [hnone] at h
  | ⟨k, fd⟩ :: es, w, record, hnodup, hrecord, h => by
    obtain ⟨hk, hnodup⟩ := List.nodupKeys_cons.mp hnodup
    have hfirst : record k = if 0 ≤ fd then some fd else none := by
      rw [hrecord k, List.dlookup_cons_eq]
      simp [Option.filter]
    rw [List.foldl_cons]
    refine Kept.closeAll hnodup (fun j => ?_) (h.close hfirst)
    by_cases hj : j = k
    · subst hj
      rw [Function.update_self, List.dlookup_eq_none.mpr hk]
      rfl
    · rw [Function.update_of_ne hj, hrecord j, List.dlookup_cons_ne _ _ hj]

end Close

/-! ## The end of a frame -/

section FrameEnd

variable {start before : World} {initial : AList fun _ : HandleId => FenceStatus} {c : Consumer}
  {o : Outstanding}

/-- The invariants between iterations. -/
structure Ready (start : World) (initial : AList fun _ : HandleId => FenceStatus) (c : Consumer) :
    Prop where
  pending : Pending start.live c {}
  initial : c.fenceInitialStatus = initial
  fds : c.fdsToCloseAtFrameEnd = ∅
  table : FdTable c.world

theorem Ready.follows (h : Ready start initial c) : Follows start c.world initial (c, {}) where
  pending := h.pending
  initial := h.initial
  kept := by
    have hrecords : c.records = fun _ => none := by
      funext k
      exact records_of_lookup_none (by rw [h.fds]; rfl)
    rw [hrecords]
    exact Kept.start h.table

/-- **The end of a frame is balanced.** -/
theorem frameEnd_spec (h : Follows start before initial (c, o))
    (hinitial : ∀ id, .fence id ∈ start.live → initial.lookup id = some (start.status id))
    (first : List HandleId → ℕ) :
    ∃ c', processFrameEndMarker first c = some c' ∧
      Balanced start before c.world c'.world o ∧ Ready start initial c' := by
  obtain ⟨⟨signaled, hsignaled⟩, hstatus⟩ := restoreFences_spec c
  set c₁ : Consumer := ({ c with world := c.restoreFences } : Consumer).closeFds with hc₁
  obtain ⟨lc, hlc, hclose⟩ := foldl_close_log c.fdsToCloseAtFrameEnd.entries c.restoreFences
  obtain ⟨hlive, hbuffers, hsignals⟩ :=
    foldl_close_eq c.fdsToCloseAtFrameEnd.entries c.restoreFences
  have hp : Pending start.live c o := h.pending
  have hpending : Pending start.live c₁ o :=
    hp.of_eq rfl (by rw [hc₁]; exact hlive.trans (by rw [hsignaled]))
      (by rw [hc₁]; exact hbuffers.trans (by rw [hsignaled])) (fun _ => rfl) rfl
  have hkept : Kept start.live before c₁.world fun _ => none := by
    refine Kept.closeAll c.fdsToCloseAtFrameEnd.nodupKeys (fun _ => rfl) ?_
    rw [hsignaled]
    exact h.kept.quiet (List.append_nil _).symm (by simp) rfl rfl
  obtain ⟨c', l, hdrain, hdrained⟩ := drain_spec first hpending rfl
  have hkept' : Kept start.live before c'.world fun _ => none := by
    rw [hdrained.world]
    exact hkept.quiet rfl (fun e he => (hdrained.quiet e he).1) rfl rfl
  -- after the marker come the closes and then the actions
  have hlog : since c.world c'.world = lc ++ l := by
    have hlog₁ : c₁.world.log = c.world.log ++ lc := hlc.trans (by rw [hsignaled])
    rw [since, hdrained.world, hlog₁, List.append_assoc]
    exact List.drop_left
  have hnotClose : ∀ e, ¬ e.OfClose → e ∉ lc := fun e he hc => he (hclose e hc)
  refine ⟨c', hdrain, ⟨fun x hx => ?_, fun cb hcb _ => ?_, fun x => ?_, hkept'.keepsSetup,
    fun id hid => ?_, fun n hn hn' => ?_, hkept'.noBadClose, ?_⟩, ?_⟩
  · rw [hlog, List.count_append, List.count_eq_zero.mpr (hnotClose (.destroyed x) fun hc => hc),
      hdrained.destroyed, if_pos hx]
  · rw [hlog]
    exact List.mem_append_right _ (hdrained.reset cb hcb)
  · rw [hlog, List.mem_append, not_or]
    exact ⟨hnotClose (.missing x) fun hc => hc, fun hc => (hdrained.quiet _ hc).2 x rfl⟩
  · have hcs : c.fenceInitialStatus.lookup id = some (start.status id) := by
      rw [show c.fenceInitialStatus = initial from h.initial]
      exact hinitial id hid
    rw [← hstatus id _ hcs]
    unfold World.status
    rw [hdrained.world]
    exact if_congr (by rw [show c₁.world.signaled = _ from hsignals]) rfl rfl
  · exact hkept'.held.once (fun _ => rfl) hn hn'
  · rw [hdrained.world]
  · exact ⟨hdrained.pending, hdrained.rest.1.trans h.initial, hdrained.rest.2, hkept'.fdTable⟩

end FrameEnd

end Dive.DiveVulkanReplayConsumer
