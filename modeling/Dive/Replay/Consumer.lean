import Mathlib.Data.List.AList
import Mathlib.Data.Finset.Basic
import Dive.Lib.Monitor

/-!
# The consumer that replays a frame in a loop

* `World`: what the superclass, the driver and the system hold, with a log of what was done to it.
* `Consumer`: the members of `DiveVulkanReplayConsumer` that keep an iteration balanced.
* One function for each call that touches them; `none` is a replay that stops.
* `processStateEndMarker`, **`processFrameEndMarker`**.
* `Valid`: what the capture and the system keep to.

Where a call may fail, `captured` and `replayed` say that it succeeded in the capture and now.
-/

namespace Dive.DiveVulkanReplayConsumer

/-- `format::HandleId`: the number of an object in the capture. -/
abbrev HandleId := ℕ

/-- The kinds that are destroyed at the end of a frame. -/
inductive ResourceKind
  | image
  | imageView
  | buffer
  | bufferView
  deriving DecidableEq

/-- A live object. -/
inductive Object
  | resource (kind : ResourceKind) (id : HandleId)
  | fence (id : HandleId)
  deriving DecidableEq

/-- Its capture id. -/
def Object.id : Object → HandleId
  | resource _ id => id
  | fence id => id

inductive FenceStatus
  | unsignaled
  | signaled
  deriving DecidableEq

/-! ## The replay below the consumer -/

/-- What a call does to the objects and to the file descriptors. -/
inductive Effect
  | destroyed (object : Object)
  /-- An object that does not exist is destroyed. -/
  | missing (object : Object)
  | reset (commandBuffer : HandleId)
  | closed (descriptor : ℕ)
  | handedOver (descriptor : ℕ)
  /-- A number that is no open fence descriptor is closed. -/
  | badClose (fd : ℤ)
  deriving DecidableEq

/-- The object table, the fences and the fence descriptors. A descriptor is its place among all that
the replay obtained, since the system uses the numbers again. -/
structure World where
  live : Finset Object := ∅
  /-- The pool of each command buffer. -/
  commandBuffers : AList fun _ : HandleId => HandleId := ∅
  signaled : Finset HandleId := ∅
  openFds : AList fun _ : ℤ => ℕ := ∅
  descriptors : ℕ := 0
  log : List Effect := []

namespace World

variable (w : World)

/-- Adds to the log. -/
def record (e : Effect) : World := { w with log := w.log ++ [e] }

/-- The table takes no object with the id `0`, which the decoder reads where the capture omits the
output of a call that failed. -/
def create (x : Object) (replayed : Bool) : World :=
  if replayed ∧ x.id ≠ 0 then { w with live := insert x w.live } else w

/-- The object is destroyed, or was not there. -/
def destroy (x : Object) : World :=
  if x ∈ w.live then { w with live := w.live.erase x }.record (.destroyed x)
  else w.record (.missing x)

def status (fence : HandleId) : FenceStatus := if fence ∈ w.signaled then .signaled else .unsignaled

def setFence (fence : HandleId) : FenceStatus → World
  | .signaled => { w with signaled := insert fence w.signaled }
  | .unsignaled => { w with signaled := w.signaled.erase fence }

/-- A number that an export returns; a sync descriptor of a signaled fence is `-1`. -/
def obtain (fd : ℤ) : World :=
  if 0 ≤ fd then
    { w with openFds := w.openFds.insert fd w.descriptors, descriptors := w.descriptors + 1 }
  else w

/-- The descriptor is closed, or was not open. -/
def close (fd : ℤ) : World :=
  match w.openFds.lookup fd with
  | some n => { w with openFds := w.openFds.erase fd }.record (.closed n)
  | none => if 0 ≤ fd then w.record (.badClose fd) else w

/-- An import that succeeds makes the driver the owner of the descriptor. -/
def importFd (fd : ℤ) (replayed : Bool) : World :=
  if replayed then
    match w.openFds.lookup fd with
    | some n => { w with openFds := w.openFds.erase fd }.record (.handedOver n)
    | none => w
  else w

/-- New command buffers of a pool. -/
def allocate (pool : HandleId) (buffers : List HandleId) : World :=
  { w with commandBuffers := buffers.foldl (fun m cb => m.insert cb pool) w.commandBuffers }

/-- Command buffers are gone. -/
def free (buffers : List HandleId) : World :=
  { w with commandBuffers := buffers.foldl (fun m cb => m.erase cb) w.commandBuffers }

/-- The command buffers of a pool. -/
def ofPool (pool : HandleId) : List HandleId :=
  w.commandBuffers.keys.filter fun cb => w.commandBuffers.lookup cb = some pool

end World

/-! ## The consumer -/

/-- What the closures of `frame_end_actions_` do. -/
inductive Action
  | destroy (object : Object)
  | reset (commandBuffer : HandleId)
  deriving DecidableEq

/-- The members of `DiveVulkanReplayConsumer`. -/
structure Consumer where
  world : World := {}
  setupFinished : Bool := false
  fenceInitialStatus : AList fun _ : HandleId => FenceStatus := ∅
  deferredReleaseList : List HandleId := []
  exportableFences : Finset HandleId := ∅
  fdsToCloseAtFrameEnd : AList fun _ : ℤ => ℤ := ∅
  frameEndActions : AList fun _ : HandleId => Action := ∅

namespace Consumer

variable (c : Consumer)

/-- `unordered_map::insert` keeps an entry that is there. -/
def insertAction (id : HandleId) (a : Action) : Consumer :=
  if c.setupFinished ∧ id ∉ c.frameEndActions then
    { c with frameEndActions := c.frameEndActions.insert id a }
  else c

/-- What has happened in the frame needs no action at its end. -/
def eraseAction (id : HandleId) : Consumer :=
  if c.setupFinished then { c with frameEndActions := c.frameEndActions.erase id } else c

/-- `CheckResult`, and the table of the superclass. -/
def create (x : Object) (captured replayed : Bool) : Option Consumer :=
  if captured && !replayed then none else some { c with world := c.world.create x replayed }

/-! ### Images and buffers -/

def processVkCreateImage (image : HandleId) (captured replayed : Bool) : Option Consumer :=
  (c.insertAction image (.destroy (.resource .image image))).create (.resource .image image)
    captured replayed

def processVkCreateImageView (imageView : HandleId) (captured replayed : Bool) : Option Consumer :=
  (c.insertAction imageView (.destroy (.resource .imageView imageView))).create
    (.resource .imageView imageView) captured replayed

def processVkCreateBuffer (buffer : HandleId) (captured replayed : Bool) : Option Consumer :=
  (c.create (.resource .buffer buffer) captured replayed).map
    (·.insertAction buffer (.destroy (.resource .buffer buffer)))

def processVkCreateBufferView (bufferView : HandleId) (captured replayed : Bool) :
    Option Consumer :=
  (c.create (.resource .bufferView bufferView) captured replayed).map
    (·.insertAction bufferView (.destroy (.resource .bufferView bufferView)))

/-- One of the four, by its kind. -/
def processVkCreate (id : HandleId) (captured replayed : Bool) : ResourceKind → Option Consumer
  | .image => c.processVkCreateImage id captured replayed
  | .imageView => c.processVkCreateImageView id captured replayed
  | .buffer => c.processVkCreateBuffer id captured replayed
  | .bufferView => c.processVkCreateBufferView id captured replayed

/-- The part that the four functions share. -/
def destroyResource (kind : ResourceKind) (id : HandleId) : Consumer :=
  { c.eraseAction id with world := c.world.destroy (.resource kind id) }

def processVkDestroyImage (image : HandleId) : Consumer := c.destroyResource .image image

def processVkDestroyImageView (imageView : HandleId) : Consumer :=
  c.destroyResource .imageView imageView

def processVkDestroyBuffer (buffer : HandleId) : Consumer := c.destroyResource .buffer buffer

def processVkDestroyBufferView (bufferView : HandleId) : Consumer :=
  c.destroyResource .bufferView bufferView

/-- One of the four, by its kind. -/
def processVkDestroy (id : HandleId) : ResourceKind → Consumer
  | .image => c.processVkDestroyImage id
  | .imageView => c.processVkDestroyImageView id
  | .buffer => c.processVkDestroyBuffer id
  | .bufferView => c.processVkDestroyBufferView id

/-! ### Fences -/

/-- `signaled` and `exportable` are read from `pCreateInfo`. -/
def processVkCreateFence (fence : HandleId) (captured replayed exportable : Bool)
    (initial : FenceStatus) : Option Consumer :=
  (c.create (.fence fence) captured replayed).map fun c =>
    let c := { c with world := if replayed then c.world.setFence fence initial else c.world }
    if captured then
      let c := if exportable then
        { c with exportableFences := insert fence c.exportableFences } else c
      if c.setupFinished then c.insertAction fence (.destroy (.fence fence))
      else { c with
        deferredReleaseList := c.deferredReleaseList ++ [fence]
        fenceInitialStatus := c.fenceInitialStatus.insert fence .unsignaled }
    else c

/-- A fence whose release is deferred stays. -/
def processVkDestroyFence (fence : HandleId) : Consumer :=
  if fence ∈ c.deferredReleaseList then c
  else { c.eraseAction fence with
    world := c.world.destroy (.fence fence)
    exportableFences := c.exportableFences.erase fence }

/-! ### Command buffers -/

def processVkBeginCommandBuffer (cb : HandleId) : Option Consumer :=
  if cb ∈ c.world.commandBuffers then some (c.insertAction cb (.reset cb)) else none

def processVkEndCommandBuffer (cb : HandleId) : Option Consumer :=
  if cb ∈ c.world.commandBuffers then some (c.eraseAction cb) else none

/-- A command buffer that is not in the table is a null pointer. -/
def processVkResetCommandBuffer (cb : HandleId) : Option Consumer :=
  if cb ∈ c.world.commandBuffers then some { c with world := c.world.record (.reset cb) } else none

def processVkAllocateCommandBuffers (pool : HandleId) (buffers : List HandleId) : Consumer :=
  { c with world := c.world.allocate pool buffers }

def processVkFreeCommandBuffers (buffers : List HandleId) : Consumer :=
  { c with world := c.world.free buffers }

def processVkDestroyCommandPool (pool : HandleId) : Consumer :=
  { c with world := c.world.free (c.world.ofPool pool) }

/-! ### File descriptors -/

/-- The entry of `fds_to_close_at_frame_end_` for an export. -/
def recordFd (captureFd fd : ℤ) : Consumer :=
  if c.setupFinished then
    { c with
      world := match c.fdsToCloseAtFrameEnd.lookup captureFd with
        | some old => c.world.close old
        | none => c.world
      fdsToCloseAtFrameEnd := c.fdsToCloseAtFrameEnd.insert captureFd fd }
  else c

/-- `replayFd` is the descriptor that the replay obtains, if it does. -/
def processVkGetFenceFdKHR (fence : HandleId) (captureFd : ℤ) (captured : Bool)
    (replayFd : Option ℤ) : Option Consumer :=
  let fd := replayFd.getD (-1)
  let c := { c with world := c.world.obtain fd }
  if fence ∉ c.exportableFences ∧ replayFd.isSome ≠ captured then
    if replayFd.isNone then some c else some (c.recordFd captureFd fd)
  else if captured && replayFd.isNone then none
  else some (c.recordFd captureFd fd)

/-- The number in the capture is what the superclass passes on. -/
def processVkImportFenceFdKHR (fd : ℤ) (replayed : Bool) : Consumer :=
  let c := if c.setupFinished then
    { c with fdsToCloseAtFrameEnd := c.fdsToCloseAtFrameEnd.erase fd } else c
  { c with world := c.world.importFd fd replayed }

/-! ### The markers -/

/-- The set-up ends: the fences are remembered. -/
def processStateEndMarker : Consumer :=
  { c with
    setupFinished := true
    fenceInitialStatus := c.fenceInitialStatus.keys.foldl
      (fun m fence => m.insert fence (c.world.status fence)) c.fenceInitialStatus }

/-- One pass of the loop over the setup fences; the second part is `reset_fence_list`. -/
def restoreFence (r : World × List HandleId) (fence : HandleId) (initial : FenceStatus) :
    World × List HandleId :=
  if r.1.status fence = initial then r
  else match initial with
    | .signaled => (r.1.setFence fence .signaled, r.2)
    | .unsignaled => (r.1, r.2 ++ [fence])

/-- The fences get their first status back. -/
def restoreFences : World :=
  let r := c.fenceInitialStatus.foldl restoreFence (c.world, [])
  r.2.foldl (fun w fence => w.setFence fence .unsignaled) r.1

/-- The descriptors of the frame are closed. -/
def closeFds : Consumer :=
  { c with
    world := c.fdsToCloseAtFrameEnd.foldl (fun w _ fd => w.close fd) c.world
    fdsToCloseAtFrameEnd := ∅ }

/-- An action at the end of a frame. -/
def perform : Action → Option Consumer
  | .destroy (.resource kind id) => some (c.processVkDestroy id kind)
  | .destroy (.fence id) => some (c.processVkDestroyFence id)
  | .reset cb => c.processVkResetCommandBuffer cb

end Consumer

/-- The loop over `frame_end_actions_`, for at most `n` actions; `first` is the place of `begin()`
among the keys. -/
def drain (first : List HandleId → ℕ) : ℕ → Consumer → Option Consumer
  | 0, c => some c
  | n + 1, c =>
    let keys := c.frameEndActions.keys
    match keys[first keys % keys.length]? with
    | none => some c
    | some id =>
      match c.frameEndActions.lookup id with
      | none => some c
      | some a =>
        (({ c with frameEndActions := c.frameEndActions.erase id } : Consumer).perform a).bind
          (drain first n)

/-- The end of a frame, in the order of the source. -/
def processFrameEndMarker (first : List HandleId → ℕ) (c : Consumer) : Option Consumer :=
  let c := ({ c with world := c.restoreFences } : Consumer).closeFds
  drain first c.frameEndActions.keys.length c

/-! ## Runs -/

/-- The calls of the decoder. -/
inductive Call
  | create (kind : ResourceKind) (id : HandleId) (captured replayed : Bool)
  | destroy (kind : ResourceKind) (id : HandleId)
  | createFence (fence : HandleId) (captured replayed exportable : Bool) (initial : FenceStatus)
  | destroyFence (fence : HandleId)
  /-- A submission signals a fence, or the application resets it. -/
  | setFence (fence : HandleId) (status : FenceStatus)
  | beginCommandBuffer (cb : HandleId)
  | endCommandBuffer (cb : HandleId)
  | resetCommandBuffer (cb : HandleId)
  | allocateCommandBuffers (pool : HandleId) (buffers : List HandleId)
  | freeCommandBuffers (buffers : List HandleId)
  | destroyCommandPool (pool : HandleId)
  | getFenceFd (fence : HandleId) (captureFd : ℤ) (captured : Bool) (replayFd : Option ℤ)
  | importFenceFd (fd : ℤ) (replayed : Bool)

/-- One call. -/
def step (c : Consumer) : Call → Option Consumer
  | .create kind id captured replayed => c.processVkCreate id captured replayed kind
  | .destroy kind id => some (c.processVkDestroy id kind)
  | .createFence fence captured replayed exportable initial =>
    c.processVkCreateFence fence captured replayed exportable initial
  | .destroyFence fence => some (c.processVkDestroyFence fence)
  | .setFence fence status => some { c with world := c.world.setFence fence status }
  | .beginCommandBuffer cb => c.processVkBeginCommandBuffer cb
  | .endCommandBuffer cb => c.processVkEndCommandBuffer cb
  | .resetCommandBuffer cb => c.processVkResetCommandBuffer cb
  | .allocateCommandBuffers pool buffers => some (c.processVkAllocateCommandBuffers pool buffers)
  | .freeCommandBuffers buffers => some (c.processVkFreeCommandBuffers buffers)
  | .destroyCommandPool pool => some (c.processVkDestroyCommandPool pool)
  | .getFenceFd fence captureFd captured replayFd =>
    c.processVkGetFenceFdKHR fence captureFd captured replayFd
  | .importFenceFd fd replayed => some (c.processVkImportFenceFdKHR fd replayed)

/-- The setup phase of a capture. -/
def setup (calls : List Call) : Option Consumer :=
  (Monitor.run step {} calls).map (·.processStateEndMarker)

/-- One replay of the section of the frame, with the order in which its actions come. -/
structure Iteration where
  calls : List Call
  first : List HandleId → ℕ

/-- One run through the frame. -/
def iterate (c : Consumer) (i : Iteration) : Option Consumer :=
  (Monitor.run step c i.calls).bind (processFrameEndMarker i.first)

/-! ## What the capture and the system keep to -/

/-- An id that no object and no command buffer has. -/
def Fresh (w : World) (id : HandleId) : Prop :=
  id ≠ 0 ∧ (∀ x ∈ w.live, x.id ≠ id) ∧ id ∉ w.commandBuffers

instance (w : World) (id : HandleId) : Decidable (Fresh w id) := by unfold Fresh; infer_instance

/-- Ids are unique, calls name objects that exist, and the system returns numbers that are not
open. -/
def Valid (w : World) : Call → Prop
  | .create _ id captured _ => if captured then Fresh w id else id = 0
  | .destroy kind id => id = 0 ∨ .resource kind id ∈ w.live
  | .createFence id captured _ _ _ => if captured then Fresh w id else id = 0
  | .destroyFence id => id = 0 ∨ .fence id ∈ w.live
  | .allocateCommandBuffers _ buffers => ∀ cb ∈ buffers, cb ≠ 0 ∧ ∀ x ∈ w.live, x.id ≠ cb
  | .getFenceFd _ _ _ replayFd => ∀ fd ∈ replayFd, fd ∉ w.openFds
  | _ => True

instance (w : World) : DecidablePred (Valid w) := fun call => by
  cases call <;> unfold Valid <;> infer_instance

end Dive.DiveVulkanReplayConsumer
