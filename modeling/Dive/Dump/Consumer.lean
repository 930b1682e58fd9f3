import Mathlib.Data.List.ModifyLast
import Mathlib.Data.Nat.Notation
import Mathlib.Logic.Function.Basic

/-!
# The consumer that looks for resources to dump

* `DumpEntry`: what one submission of a command buffer can be dumped as.
* `StateMachine`: follows the recording of one command buffer; `transition` is the command that it
  handles in each of its states.
* `DumpResourcesBuilderConsumer`: one state machine for each command buffer.
* `DumpResourcesBuilderConsumer.step`: one call of the capture.
-/

namespace Dive.Gfxr

abbrev HandleId := ℕ

structure DumpRenderPass where
  beginBlockIndex : ℕ := 0
  endBlockIndex : ℕ := 0
  deriving DecidableEq

def DumpRenderPass.isComplete (p : DumpRenderPass) : Bool :=
  p.beginBlockIndex != 0 && p.endBlockIndex != 0

/-- Block indices; `0` stands for a missing one. -/
structure DumpEntry where
  beginCommandBufferBlockIndex : ℕ := 0
  renderPasses : List DumpRenderPass := []
  draws : List ℕ := []
  queueSubmitBlockIndex : ℕ := 0
  deriving DecidableEq

def DumpEntry.isComplete (e : DumpEntry) : Bool :=
  e.beginCommandBufferBlockIndex != 0 && e.queueSubmitBlockIndex != 0 &&
    !e.renderPasses.isEmpty && !e.draws.isEmpty && e.renderPasses.all (·.isComplete)

/-- `vkCmdBeginRenderPass`, `vkCmdBeginRenderPass2KHR` and `vkCmdBeginRenderPass2`; the same for the
end of a render pass. -/
inductive RenderPassVersion
  | core
  | khr2
  | core2
  deriving DecidableEq

/-- What is recorded into a command buffer. -/
inductive Command
  | beginRenderPass (version : RenderPassVersion)
  | endRenderPass (version : RenderPassVersion)
  | draw
  | drawIndexed
  deriving DecidableEq

/-- `Decoded_VkSubmitInfo`; its `commandBufferCount` is the length of the list. -/
structure SubmitInfo where
  commandBuffers : List HandleId
  deriving DecidableEq

inductive Call
  | beginCommandBuffer (commandBuffer : HandleId)
  | command (commandBuffer : HandleId) (command : Command)
  | queueSubmit (submits : List SubmitInfo)
  | other
  deriving DecidableEq

/-- A call, with the `ApiCallInfo` of its block. -/
structure ApiCall where
  index : ℕ
  call : Call
  deriving DecidableEq

/-- `pSubmits->GetPointer()->commandBufferCount`: the pointer is to the first of the structs. -/
def commandBufferCount (submits : List SubmitInfo) : ℕ :=
  (submits.head?.map (·.commandBuffers.length)).getD 0

/-- The handles that the two nested loops over the submits read, in order; `none` is a read past the
end of a `pCommandBuffers`. -/
def submittedHandles (submits : List SubmitInfo) : List (Option HandleId) :=
  submits.flatMap fun submit =>
    (List.range (commandBufferCount submits)).map (submit.commandBuffers[·]?)

/-! ## The state machine of a command buffer -/

/-- The classes of states. -/
inductive MachineState
  | lookingForBeginCommandBuffer
  | lookingForBeginRenderPass
  | lookingForDraw
  deriving DecidableEq

structure StateMachine where
  commandBuffer : HandleId
  state : MachineState := .lookingForBeginCommandBuffer
  dumpEntry : DumpEntry := {}

namespace StateMachine

variable (m : StateMachine) (index : ℕ)

/-- `Process_vkBeginCommandBuffer`. -/
def beginCommandBuffer : StateMachine :=
  match m.state with
  | .lookingForBeginCommandBuffer =>
    { m with
      dumpEntry := { m.dumpEntry with beginCommandBufferBlockIndex := index }
      state := .lookingForBeginRenderPass }
  | _ => m

/-- `Process_vkCmdDraw` and `Process_vkCmdDrawIndexed` of `LookingForDraw`. -/
def pushDraw : StateMachine :=
  { m with dumpEntry := { m.dumpEntry with draws := m.dumpEntry.draws ++ [index] } }

/-- `Process_vkCmdEndRenderPass` and `Process_vkCmdEndRenderPass2KHR` of `LookingForDraw`. -/
def endRenderPass : StateMachine :=
  { m with
    dumpEntry := { m.dumpEntry with
      renderPasses := m.dumpEntry.renderPasses.modifyLast
        fun p => { p with endBlockIndex := index } }
    state := .lookingForBeginRenderPass }

/-- `Process_vkCmdBeginRenderPass` and `Process_vkCmdBeginRenderPass2KHR` of
`LookingForBeginRenderPass`. -/
def beginRenderPass : StateMachine :=
  { m with
    dumpEntry := { m.dumpEntry with
      renderPasses := m.dumpEntry.renderPasses ++ [{ beginBlockIndex := index }] }
    state := .lookingForDraw }

/-- A command reaches the state; what a state does not override does nothing. -/
def transition : Command → StateMachine
  | .draw | .drawIndexed =>
    match m.state with
    | .lookingForDraw => m.pushDraw index
    | _ => m
  | .endRenderPass .core | .endRenderPass .khr2 =>
    match m.state with
    | .lookingForDraw => m.endRenderPass index
    | _ => m
  | .beginRenderPass .core | .beginRenderPass .khr2 =>
    match m.state with
    | .lookingForBeginRenderPass => m.beginRenderPass index
    | _ => m
  | .beginRenderPass .core2 | .endRenderPass .core2 => m

/-- The search of a submit for the command buffer of the machine; `none` is a read past the end. -/
def finds : List (Option HandleId) → Option Bool
  | [] => some false
  | none :: _ => none
  | some id :: ids => if id = m.commandBuffer then some true else finds ids

/-- What a submit makes of a machine: it stays, or it is done, with an entry or without. -/
inductive Outcome
  | stays
  | done (accepted : Option DumpEntry)

/-- `Done`. -/
def done (entry : DumpEntry) : Outcome :=
  if entry.isComplete then .done (some entry) else .done none

/-- `Process_vkQueueSubmit`. -/
def queueSubmit (submits : List SubmitInfo) : Option Outcome :=
  match m.state with
  | .lookingForBeginRenderPass =>
    (m.finds (submittedHandles submits)).map fun found =>
      if found then done { m.dumpEntry with queueSubmitBlockIndex := index } else .stays
  | _ => some .stays

end StateMachine

/-! ## The consumer -/

/-- `found` lists the entries that `dump_found_callback_` has been run for. -/
@[ext]
structure DumpResourcesBuilderConsumer where
  incompleteDumps : HandleId → Option StateMachine := fun _ => none
  found : List DumpEntry := []

namespace DumpResourcesBuilderConsumer

variable (s : DumpResourcesBuilderConsumer) (index : ℕ)

/-- `Process_vkBeginCommandBuffer`: a machine that is there is replaced. -/
def beginCommandBuffer (commandBuffer : HandleId) : DumpResourcesBuilderConsumer :=
  let machine : StateMachine := { commandBuffer }
  { s with incompleteDumps :=
      Function.update s.incompleteDumps commandBuffer (some (machine.beginCommandBuffer index)) }

/-- A command, through `InvokeIfFound`. -/
def command (commandBuffer : HandleId) (command : Command) : DumpResourcesBuilderConsumer :=
  match s.incompleteDumps commandBuffer with
  | none => s
  | some machine =>
    { s with incompleteDumps :=
        Function.update s.incompleteDumps commandBuffer (some (machine.transition index command)) }

/-- The submit reaches the machine of one of its handles. -/
def submitHandle (submits : List SubmitInfo) (commandBuffer : HandleId) :
    Option DumpResourcesBuilderConsumer :=
  match s.incompleteDumps commandBuffer with
  | none => some s
  | some machine =>
    (machine.queueSubmit index submits).map fun
      | .stays => s
      | .done accepted =>
        { incompleteDumps := Function.update s.incompleteDumps commandBuffer none
          found := s.found ++ accepted.toList }

/-- `Process_vkQueueSubmit`. -/
def queueSubmit (submits : List SubmitInfo) : Option DumpResourcesBuilderConsumer :=
  (submittedHandles submits).foldlM (fun s id => id.bind (s.submitHandle index submits)) s

/-- One call of the capture; `none` where a handle is read past the end of its array. -/
def step (c : ApiCall) : Option DumpResourcesBuilderConsumer :=
  match c.call with
  | .beginCommandBuffer commandBuffer => some (s.beginCommandBuffer c.index commandBuffer)
  | .command commandBuffer command => some (s.command c.index commandBuffer command)
  | .queueSubmit submits => s.queueSubmit c.index submits
  | .other => some s

end DumpResourcesBuilderConsumer

end Dive.Gfxr
