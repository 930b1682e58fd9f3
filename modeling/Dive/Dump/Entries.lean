import Dive.Dump.Consumer
import Dive.Lib.Since
import Mathlib.Data.List.Basic

/-!
# Dump entries and the recordings that they describe

* `recording`: the calls from the latest begin of a command buffer on.
* `renderPasses`, `passDraws`: the render passes of a recording, the draws inside them.
* `isPending`, `expectedEntry`: a recording that is not submitted yet, the entry that it makes.
* `dumpEntries`: the entries of a capture.
* `Fits`: the calls that the consumer handles as the capture means them.
* **`run_eq`**: the state of the consumer is the one that the calls so far describe.
* **`found_eq_dumpEntries`**: it finds the entries of the capture.
-/

namespace Dive.Gfxr

open DumpResourcesBuilderConsumer

/-! ## Recordings -/

namespace ApiCall

variable (cb : HandleId) (c : ApiCall)

def begins : Bool := c.call == .beginCommandBuffer cb

def beginsRenderPass : Bool :=
  match c.call with
  | .command id (.beginRenderPass _) => id == cb
  | _ => false

def endsRenderPass : Bool :=
  match c.call with
  | .command id (.endRenderPass _) => id == cb
  | _ => false

def draws : Bool :=
  match c.call with
  | .command id .draw | .command id .drawIndexed => id == cb
  | _ => false

/-- The command buffers of a submit, in order. -/
def submitted : List HandleId :=
  match c.call with
  | .queueSubmit submits => submits.flatMap (·.commandBuffers)
  | _ => []

def submits : Bool := c.submitted.contains cb

/-- A call that has to do with the command buffer. -/
def concerns : Bool :=
  c.begins cb || c.beginsRenderPass cb || c.endsRenderPass cb || c.draws cb || c.submits cb

variable {cb : HandleId} {c : ApiCall}

theorem not_ends_of_begins (h : c.beginsRenderPass cb) : c.endsRenderPass cb = false := by
  unfold beginsRenderPass at h
  unfold endsRenderPass
  split at h <;> simp_all

end ApiCall

/-- The calls from the latest `vkBeginCommandBuffer` on. -/
abbrev recording (cb : HandleId) (calls : List ApiCall) : List ApiCall :=
  calls.sinceLast (·.begins cb)

section Recording

variable (cb : HandleId)

/-- The begin and the end of each render pass; a pass goes on to the next end. -/
def renderPasses : Bool → List ApiCall → List (ℕ × Option ℕ)
  | _, [] => []
  | false, c :: l =>
    if c.beginsRenderPass cb then
      (c.index, (l.find? (·.endsRenderPass cb)).map (·.index)) :: renderPasses true l
    else renderPasses false l
  | true, c :: l => renderPasses (!c.endsRenderPass cb) l

/-- The draws inside the render passes. -/
def passDraws : Bool → List ApiCall → List ℕ
  | _, [] => []
  | false, c :: l => passDraws (c.beginsRenderPass cb) l
  | true, c :: l =>
    if c.endsRenderPass cb then passDraws false l
    else if c.draws cb then c.index :: passDraws true l
    else passDraws true l

/-- A render pass has not ended. -/
def insidePass : Bool → List ApiCall → Bool
  | inside, [] => inside
  | false, c :: l => insidePass (c.beginsRenderPass cb) l
  | true, c :: l => insidePass (!c.endsRenderPass cb) l

/-- The command buffer has been begun, and not been submitted since. -/
def isPending (calls : List ApiCall) : Bool :=
  (recording cb calls).any (·.begins cb) && !(recording cb calls).any (·.submits cb)

/-- The entry of a recording, with what is missing in it as `0`. -/
def entryOf (l : List ApiCall) (submit : ℕ) : DumpEntry where
  beginCommandBufferBlockIndex := (l.head?.map (·.index)).getD 0
  renderPasses := (renderPasses cb false l).map fun p => ⟨p.1, p.2.getD 0⟩
  draws := passDraws cb false l
  queueSubmitBlockIndex := submit

/-- **What a submit of the command buffer finds**: the entry of its recording, at the first submit
of a recording with render passes that have all ended and with a draw in one of them. -/
def expectedEntry (calls : List ApiCall) (submit : ℕ) : Option DumpEntry :=
  if isPending cb calls ∧ renderPasses cb false (recording cb calls) ≠ [] ∧
      (∀ p ∈ renderPasses cb false (recording cb calls), p.2.isSome) ∧
      passDraws cb false (recording cb calls) ≠ [] then
    some (entryOf cb (recording cb calls) submit)
  else none

end Recording

/-- The entries that a call finds after others: one for each command buffer of a submit. -/
def entriesAt (calls : List ApiCall) (c : ApiCall) : List DumpEntry :=
  c.submitted.eraseDups.filterMap fun cb => expectedEntry cb calls c.index

/-- The entries that `calls` find behind the calls `before`. -/
def entriesFrom (before : List ApiCall) : List ApiCall → List DumpEntry
  | [] => []
  | c :: calls => entriesAt before c ++ entriesFrom (before ++ [c]) calls

/-- **The entries of a capture.** -/
def dumpEntries (calls : List ApiCall) : List DumpEntry := entriesFrom [] calls

/-- **A call that is handled as it is meant**: its block has an index, each `VkSubmitInfo` of a
submit has as many command buffers as the first, none of them is submitted inside a render pass, and
the render pass is not one of `vkCmdBeginRenderPass2` or `vkCmdEndRenderPass2`. This is asked of all
calls, also of those that the dump ignores. -/
structure Fits (calls : List ApiCall) (c : ApiCall) : Prop where
  index_pos : 0 < c.index
  counts : ∀ submits, c.call = .queueSubmit submits →
    ∀ submit ∈ submits, submit.commandBuffers.length = commandBufferCount submits
  ended : ∀ cb ∈ c.submitted, isPending cb calls →
    insidePass cb false (recording cb calls) = false
  version : ∀ cb, isPending cb calls →
    c.call ≠ .command cb (.beginRenderPass .core2) ∧ c.call ≠ .command cb (.endRenderPass .core2)

/-- Each call fits the calls before it. -/
def FitFrom (before : List ApiCall) : List ApiCall → Prop
  | [] => True
  | c :: calls => Fits before c ∧ FitFrom (before ++ [c]) calls

/-- **Each call of a capture fits.** -/
def AllFit (calls : List ApiCall) : Prop := FitFrom [] calls

/-- The consumer after the calls of a capture. -/
def run (calls : List ApiCall) : Option DumpResourcesBuilderConsumer :=
  calls.foldlM step {}

/-! ## One more call -/

section Concat

variable {cb : HandleId} {c : ApiCall} {l : List ApiCall}

theorem insidePass_concat (b : Bool) (l : List ApiCall) (c : ApiCall) :
    insidePass cb b (l ++ [c]) =
      if insidePass cb b l then !c.endsRenderPass cb else c.beginsRenderPass cb := by
  induction l generalizing b with
  | nil => cases b <;> simp [insidePass]
  | cons d l ih => cases b <;> exact ih _

theorem passDraws_concat (b : Bool) (l : List ApiCall) (c : ApiCall) :
    passDraws cb b (l ++ [c]) = passDraws cb b l ++
      if insidePass cb b l && !c.endsRenderPass cb && c.draws cb then [c.index] else [] := by
  induction l generalizing b with
  | nil =>
    cases b with
    | false => simp [passDraws, insidePass]
    | true => by_cases he : c.endsRenderPass cb <;> simp [passDraws, insidePass, he]
  | cons d l ih =>
    cases b with
    | false => simp [passDraws, insidePass, ih]
    | true =>
      by_cases he : d.endsRenderPass cb
      · simp [passDraws, insidePass, he, ih]
      · by_cases hd : d.draws cb <;> simp [passDraws, insidePass, he, hd, ih]

/-- An end closes what is open. -/
def closeAt (index : ℕ) (p : ℕ × Option ℕ) : ℕ × Option ℕ := (p.1, p.2.or (some index))

theorem renderPasses_concat (b : Bool) (l : List ApiCall) (c : ApiCall) :
    renderPasses cb b (l ++ [c]) =
      if c.endsRenderPass cb then (renderPasses cb b l).map (closeAt c.index)
      else renderPasses cb b l ++
        if !insidePass cb b l && c.beginsRenderPass cb then [(c.index, none)] else [] := by
  induction l generalizing b with
  | nil =>
    cases b with
    | true => simp [renderPasses, insidePass]
    | false =>
      by_cases hb : c.beginsRenderPass cb
      · simp [renderPasses, insidePass, hb, ApiCall.not_ends_of_begins hb]
      · simp [renderPasses, insidePass, hb]
  | cons d l ih =>
    cases b with
    | true => exact ih _
    | false =>
      by_cases hd : d.beginsRenderPass cb
      · rw [List.cons_append, renderPasses, if_pos hd, ih, renderPasses, if_pos hd, insidePass, hd,
          List.find?_append]
        by_cases he : c.endsRenderPass cb
        · cases hf : l.find? (·.endsRenderPass cb) <;> simp [he, closeAt]
        · simp [he]
      · rw [List.cons_append, renderPasses, if_neg hd, ih, renderPasses, if_neg hd, insidePass,
          (Bool.not_eq_true _).mp hd]

theorem ended_of_closeAt {passes : List (ℕ × Option ℕ)} {index : ℕ} :
    ∀ p ∈ passes.map (closeAt index), p.2.isSome := by
  intro p hp
  obtain ⟨q, -, rfl⟩ := List.mem_map.mp hp
  cases h : q.2 <;> simp [closeAt, h]

theorem map_closeAt_of_ended {passes : List (ℕ × Option ℕ)} (h : ∀ p ∈ passes, p.2.isSome)
    (index : ℕ) : passes.map (closeAt index) = passes := by
  conv_rhs => rw [← List.map_id passes]
  apply List.map_congr_left
  rintro ⟨b, e⟩ hp
  obtain ⟨e, rfl⟩ := Option.isSome_iff_exists.mp (h _ hp)
  rfl

theorem renderPasses_cases (cb : HandleId) (l : List ApiCall) :
    (insidePass cb false l = false ∧ ∀ p ∈ renderPasses cb false l, p.2.isSome) ∨
      (insidePass cb false l = true ∧ ∃ ended b, renderPasses cb false l = ended ++ [(b, none)] ∧
        ∀ p ∈ ended, p.2.isSome) := by
  induction l using List.reverseRecOn with
  | nil => exact .inl ⟨rfl, by simp [renderPasses]⟩
  | append_singleton l c ih =>
    rw [insidePass_concat, renderPasses_concat]
    rcases ih with ⟨hin, hall⟩ | ⟨hin, ended, b, heq, hall⟩
    · simp only [hin, Bool.false_eq_true, if_false, Bool.not_false, Bool.true_and]
      by_cases hb : c.beginsRenderPass cb
      · refine .inr ⟨hb, renderPasses cb false l, c.index, ?_, hall⟩
        simp [hb, ApiCall.not_ends_of_begins hb]
      · refine .inl ⟨(Bool.not_eq_true _).mp hb, ?_⟩
        by_cases he : c.endsRenderPass cb
        · rw [if_pos he]
          exact ended_of_closeAt
        · simpa [he, hb] using hall
    · simp only [hin, if_true, Bool.not_true, Bool.false_and, Bool.false_eq_true, if_false,
        List.append_nil]
      by_cases he : c.endsRenderPass cb
      · refine .inl ⟨by simp [he], ?_⟩
        rw [if_pos he]
        exact ended_of_closeAt
      · exact .inr ⟨by simp [he], ended, b, by simpa [he] using heq, hall⟩

end Concat

/-! ## The machine of a recording -/

/-- The state machine that has followed a recording. -/
def machineOf (cb : HandleId) (l : List ApiCall) : StateMachine where
  commandBuffer := cb
  state := if insidePass cb false l then .lookingForDraw else .lookingForBeginRenderPass
  dumpEntry := entryOf cb l 0

section Machine

variable {cb : HandleId} {c : ApiCall} {l : List ApiCall}

theorem machineOf_begin (h : c.call = .beginCommandBuffer cb) :
    machineOf cb [c] = StateMachine.beginCommandBuffer { commandBuffer := cb } c.index := by
  have hb : c.beginsRenderPass cb = false := by simp [ApiCall.beginsRenderPass, h]
  simp [machineOf, entryOf, insidePass, renderPasses, passDraws, hb,
    StateMachine.beginCommandBuffer]

theorem head?_concat_of_ne_nil (hl : l ≠ []) : (l ++ [c]).head? = l.head? := by
  cases l with
  | nil => exact absurd rfl hl
  | cons a l => rfl

theorem machineOf_draw (hl : l ≠ []) (hd : c.draws cb) (hb : c.beginsRenderPass cb = false)
    (he : c.endsRenderPass cb = false) :
    machineOf cb (l ++ [c]) = match (machineOf cb l).state with
      | .lookingForDraw => (machineOf cb l).pushDraw c.index
      | _ => machineOf cb l := by
  by_cases hin : insidePass cb false l <;>
    simp [machineOf, entryOf, insidePass_concat, renderPasses_concat, passDraws_concat,
      head?_concat_of_ne_nil hl, hin, hd, hb, he, StateMachine.pushDraw]

theorem machineOf_beginRenderPass (hl : l ≠ []) (hb : c.beginsRenderPass cb)
    (hd : c.draws cb = false) :
    machineOf cb (l ++ [c]) = match (machineOf cb l).state with
      | .lookingForBeginRenderPass => (machineOf cb l).beginRenderPass c.index
      | _ => machineOf cb l := by
  by_cases hin : insidePass cb false l <;>
    simp [machineOf, entryOf, insidePass_concat, renderPasses_concat, passDraws_concat,
      head?_concat_of_ne_nil hl, hin, hd, hb, ApiCall.not_ends_of_begins hb,
      StateMachine.beginRenderPass]

theorem machineOf_endRenderPass (hl : l ≠ []) (he : c.endsRenderPass cb)
    (hb : c.beginsRenderPass cb = false) :
    machineOf cb (l ++ [c]) = match (machineOf cb l).state with
      | .lookingForDraw => (machineOf cb l).endRenderPass c.index
      | _ => machineOf cb l := by
  rcases renderPasses_cases cb l with ⟨hin, hall⟩ | ⟨hin, ended, b, heq, hall⟩
  · simp [machineOf, entryOf, insidePass_concat, renderPasses_concat, passDraws_concat,
      head?_concat_of_ne_nil hl, hin, hb, he, map_closeAt_of_ended hall]
  · simp [machineOf, entryOf, insidePass_concat, renderPasses_concat, passDraws_concat,
      head?_concat_of_ne_nil hl, hin, he, heq, map_closeAt_of_ended hall,
      StateMachine.endRenderPass, closeAt, List.modifyLast_concat]

/-- **A command of the command buffer.** -/
theorem machineOf_command {command : Command} (hl : l ≠ []) (hc : c.call = .command cb command)
    (hb : command ≠ .beginRenderPass .core2) (he : command ≠ .endRenderPass .core2) :
    machineOf cb (l ++ [c]) = (machineOf cb l).transition c.index command := by
  cases command with
  | draw =>
    exact machineOf_draw hl (by simp [ApiCall.draws, hc])
      (by simp [ApiCall.beginsRenderPass, hc]) (by simp [ApiCall.endsRenderPass, hc])
  | drawIndexed =>
    exact machineOf_draw hl (by simp [ApiCall.draws, hc])
      (by simp [ApiCall.beginsRenderPass, hc]) (by simp [ApiCall.endsRenderPass, hc])
  | beginRenderPass version =>
    have h := @machineOf_beginRenderPass cb c l hl
      (by simp [ApiCall.beginsRenderPass, hc]) (by simp [ApiCall.draws, hc])
    cases version with
    | core2 => exact absurd rfl hb
    | core => exact h
    | khr2 => exact h
  | endRenderPass version =>
    have h := @machineOf_endRenderPass cb c l hl
      (by simp [ApiCall.endsRenderPass, hc]) (by simp [ApiCall.beginsRenderPass, hc])
    cases version with
    | core2 => exact absurd rfl he
    | core => exact h
    | khr2 => exact h

theorem machineOf_other (hl : l ≠ []) (hb : c.beginsRenderPass cb = false)
    (he : c.endsRenderPass cb = false) (hd : c.draws cb = false) :
    machineOf cb (l ++ [c]) = machineOf cb l := by
  by_cases hin : insidePass cb false l <;>
    simp [machineOf, entryOf, insidePass_concat, renderPasses_concat, passDraws_concat,
      head?_concat_of_ne_nil hl, hin, hd, hb, he]

end Machine

/-! ## The consumer after the calls -/

/-- The consumer that the calls describe. -/
def consumerOf (calls : List ApiCall) : DumpResourcesBuilderConsumer where
  incompleteDumps cb :=
    if isPending cb calls then some (machineOf cb (recording cb calls)) else none
  found := dumpEntries calls

section Calls

variable {cb : HandleId} {c : ApiCall} {calls : List ApiCall}

theorem recording_concat (cb : HandleId) (calls : List ApiCall) (c : ApiCall) :
    recording cb (calls ++ [c]) = if c.begins cb then [c] else recording cb calls ++ [c] :=
  List.sinceLast_concat _ _ _

theorem ApiCall.not_submits_of_begins (h : c.begins cb) : c.submits cb = false := by
  rw [ApiCall.begins, beq_iff_eq] at h
  simp [ApiCall.submits, ApiCall.submitted, h]

theorem isPending_concat (cb : HandleId) (calls : List ApiCall) (c : ApiCall) :
    isPending cb (calls ++ [c]) = (c.begins cb || (isPending cb calls && !c.submits cb)) := by
  rw [isPending, recording_concat]
  by_cases hb : c.begins cb
  · simp [hb, ApiCall.not_submits_of_begins hb]
  · simp [hb, isPending, Bool.and_assoc]

theorem recording_ne_nil (h : isPending cb calls) : recording cb calls ≠ [] := by
  intro hnil
  simp [isPending, hnil] at h

theorem entriesFrom_concat (before calls : List ApiCall) (c : ApiCall) :
    entriesFrom before (calls ++ [c]) =
      entriesFrom before calls ++ entriesAt (before ++ calls) c := by
  induction calls generalizing before with
  | nil => simp [entriesFrom]
  | cons d calls ih =>
    rw [List.cons_append, entriesFrom, ih, entriesFrom, List.append_assoc, List.append_assoc]
    rfl

theorem fitFrom_concat {before : List ApiCall} :
    FitFrom before (calls ++ [c]) ↔ FitFrom before calls ∧ Fits (before ++ calls) c := by
  induction calls generalizing before with
  | nil => simp [FitFrom]
  | cons d calls ih =>
    rw [List.cons_append, FitFrom, ih, FitFrom, and_assoc, List.append_assoc]
    rfl

theorem dumpEntries_concat (calls : List ApiCall) (c : ApiCall) :
    dumpEntries (calls ++ [c]) = dumpEntries calls ++ entriesAt calls c := by
  rw [dumpEntries, entriesFrom_concat, List.nil_append]
  rfl

theorem found_concat : (consumerOf (calls ++ [c])).found =
    (consumerOf calls).found ++ entriesAt calls c :=
  dumpEntries_concat calls c

theorem incompleteDumps_of_not_concerns (h : c.concerns cb = false) :
    (consumerOf (calls ++ [c])).incompleteDumps cb = (consumerOf calls).incompleteDumps cb := by
  simp only [ApiCall.concerns, Bool.or_eq_false_iff] at h
  obtain ⟨⟨⟨⟨hb, hr⟩, he⟩, hd⟩, hs⟩ := h
  simp only [consumerOf, isPending_concat, recording_concat, hb, hs, Bool.false_eq_true, if_false,
    Bool.false_or, Bool.not_false, Bool.and_true]
  by_cases hp : isPending cb calls
  · rw [if_pos hp, if_pos hp, machineOf_other (recording_ne_nil hp) hr he hd]
  · rw [if_neg hp, if_neg hp]

theorem step_beginCommandBuffer (h : c.call = .beginCommandBuffer cb) :
    (consumerOf calls).beginCommandBuffer c.index cb = consumerOf (calls ++ [c]) := by
  have hfound : entriesAt calls c = [] := by simp [entriesAt, ApiCall.submitted, h]
  refine DumpResourcesBuilderConsumer.ext (funext fun id => ?_) ?_
  · by_cases hid : id = cb
    · subst hid
      have hb : c.begins id := by simp [ApiCall.begins, h]
      simp [consumerOf, isPending_concat, recording_concat, hb, machineOf_begin h,
        beginCommandBuffer]
    · rw [incompleteDumps_of_not_concerns (by
        simp [ApiCall.concerns, ApiCall.begins, ApiCall.beginsRenderPass, ApiCall.endsRenderPass,
          ApiCall.draws, ApiCall.submits, ApiCall.submitted, h, Ne.symm hid])]
      simp [beginCommandBuffer, hid]
  · simp [found_concat, hfound, beginCommandBuffer]

theorem step_command {cmd : Command} (h : c.call = .command cb cmd)
    (hb : isPending cb calls → cmd ≠ .beginRenderPass .core2)
    (he : isPending cb calls → cmd ≠ .endRenderPass .core2) :
    (consumerOf calls).command c.index cb cmd = consumerOf (calls ++ [c]) := by
  have hfound : entriesAt calls c = [] := by simp [entriesAt, ApiCall.submitted, h]
  have hbegins : ∀ id, c.begins id = false := fun id => by simp [ApiCall.begins, h]
  have hsubmits : ∀ id, c.submits id = false := fun id => by
    simp [ApiCall.submits, ApiCall.submitted, h]
  have hother : ∀ id, id ≠ cb → (consumerOf (calls ++ [c])).incompleteDumps id =
      (consumerOf calls).incompleteDumps id := fun id hid =>
    incompleteDumps_of_not_concerns (by
      cases cmd <;> simp [ApiCall.concerns, hbegins, hsubmits, ApiCall.beginsRenderPass,
        ApiCall.endsRenderPass, ApiCall.draws, h, Ne.symm hid])
  have hself : (consumerOf (calls ++ [c])).incompleteDumps cb =
      ((consumerOf calls).incompleteDumps cb).map (·.transition c.index cmd) := by
    simp only [consumerOf, isPending_concat, recording_concat, hbegins, hsubmits,
      Bool.false_eq_true, if_false, Bool.false_or, Bool.not_false, Bool.and_true]
    by_cases hp : isPending cb calls
    · rw [if_pos hp, if_pos hp, machineOf_command (recording_ne_nil hp) h (hb hp) (he hp)]
      rfl
    · rw [if_neg hp, if_neg hp]
      rfl
  refine DumpResourcesBuilderConsumer.ext (funext fun id => ?_) ?_
  · by_cases hid : id = cb
    · rw [hid, hself, command]
      cases hm : (consumerOf calls).incompleteDumps cb with
      | none => simpa using hm
      | some m => simp
    · rw [hother id hid, command]
      cases (consumerOf calls).incompleteDumps cb with
      | none => rfl
      | some m => simp [hid]
  · rw [found_concat, hfound, List.append_nil, command]
    cases (consumerOf calls).incompleteDumps cb <;> rfl

/-! ## Submits -/

theorem submittedHandles_eq {submits : List SubmitInfo} (h : ∀ submit ∈ submits,
    submit.commandBuffers.length = commandBufferCount submits) :
    submittedHandles submits = (submits.flatMap (·.commandBuffers)).map some := by
  rw [submittedHandles, List.map_flatMap]
  refine List.flatMap_congr fun submit hsubmit => ?_
  rw [← h submit hsubmit]
  apply List.ext_getElem (by simp)
  intro i hi hi'
  simp at hi
  simp [hi]

theorem finds_of_mem {m : StateMachine} {ids : List HandleId} (h : m.commandBuffer ∈ ids) :
    m.finds (ids.map some) = some true := by
  induction ids with
  | nil => cases h
  | cons id ids ih =>
    rw [List.map_cons, StateMachine.finds]
    by_cases hid : id = m.commandBuffer
    · rw [if_pos hid]
    · rw [if_neg hid]
      exact ih ((List.mem_cons.mp h).resolve_left (Ne.symm hid))

/-- **The loop over the handles**, when each machine that it reaches is done. -/
theorem foldlM_submitHandle {s : DumpResourcesBuilderConsumer} {index : ℕ}
    {submits : List SubmitInfo} (accepted : HandleId → Option DumpEntry) (ids : List HandleId)
    (h : ∀ id ∈ ids, (s.incompleteDumps id = none ∧ accepted id = none) ∨
      ∃ m, s.incompleteDumps id = some m ∧
        m.queueSubmit index submits = some (.done (accepted id))) :
    (ids.map some).foldlM (fun s id => id.bind (s.submitHandle index submits)) s =
      some { incompleteDumps := fun cb => if cb ∈ ids then none else s.incompleteDumps cb
             found := s.found ++ ids.eraseDups.filterMap accepted } := by
  induction ids using List.reverseRecOn with
  | nil => simp
  | append_singleton ids id ih =>
    have hdups : (ids ++ [id]).eraseDups = ids.eraseDups ++ if id ∈ ids then [] else [id] := by
      by_cases hmem : id ∈ ids <;>
        simp [List.eraseDups_append, List.removeAll, List.eraseDups_cons, hmem]
    rw [List.map_append, List.foldlM_append, ih fun id' hid' => h id' (List.mem_append_left _ hid')]
    simp only [List.map_cons, List.map_nil, List.foldlM_cons, List.foldlM_nil, Option.bind_some,
      submitHandle, Option.bind_eq_bind, Option.pure_def, hdups, List.filterMap_append]
    by_cases hmem : id ∈ ids
    · -- the machine is gone since the handle came first
      simp only [hmem, if_true, List.filterMap_nil, List.append_nil, Option.bind_some,
        Option.some.injEq, DumpResourcesBuilderConsumer.mk.injEq, and_true]
      funext cb
      by_cases hcb : cb = id <;> simp [hcb, hmem]
    · rcases h id (List.mem_append_right _ (List.mem_singleton_self id)) with ⟨hm, ha⟩ | ⟨m, hm, hq⟩
      · simp only [hmem, if_false, hm, Option.bind_some, Option.some.injEq,
          DumpResourcesBuilderConsumer.mk.injEq]
        refine ⟨funext fun cb => ?_, by simp [ha]⟩
        by_cases hcb : cb = id <;> simp [hcb, hm]
      · simp only [hmem, if_false, hm, hq, Option.map_some, Option.bind_some, Option.some.injEq,
          DumpResourcesBuilderConsumer.mk.injEq]
        refine ⟨funext fun cb => ?_, by cases ha : accepted id <;> simp [ha]⟩
        by_cases hcb : cb = id <;> simp [hcb]

theorem renderPasses_index {P : ℕ → Prop} {l : List ApiCall} (h : ∀ c ∈ l, P c.index) (b : Bool) :
    ∀ p ∈ renderPasses cb b l, P p.1 ∧ ∀ e ∈ p.2, P e := by
  induction l generalizing b with
  | nil => simp [renderPasses]
  | cons c l ih =>
    have hl : ∀ c ∈ l, P c.index := fun c hc => h c (List.mem_cons_of_mem _ hc)
    cases b with
    | true => exact ih hl _
    | false =>
      by_cases hb : c.beginsRenderPass cb
      · rw [renderPasses, if_pos hb]
        refine List.forall_mem_cons.mpr ⟨⟨h c List.mem_cons_self, fun e he => ?_⟩, ih hl true⟩
        obtain ⟨d, hd, rfl⟩ := Option.map_eq_some_iff.mp he
        exact hl d (List.mem_of_find?_eq_some hd)
      · rw [renderPasses, if_neg hb]
        exact ih hl false

theorem entryOf_isComplete {l : List ApiCall} {index : ℕ} (hl : ∀ c ∈ l, 0 < c.index)
    (hne : l ≠ []) (hindex : 0 < index) (hended : insidePass cb false l = false) :
    (entryOf cb l index).isComplete = true ↔
      renderPasses cb false l ≠ [] ∧ (∀ p ∈ renderPasses cb false l, p.2.isSome) ∧
        passDraws cb false l ≠ [] := by
  have hall : ∀ p ∈ renderPasses cb false l, p.2.isSome := by
    rcases renderPasses_cases cb l with ⟨-, h⟩ | ⟨h, -⟩
    · exact h
    · rw [hended] at h
      cases h
  have hpasses : (entryOf cb l index).renderPasses.all (·.isComplete) = true := by
    simp only [entryOf, List.all_map, List.all_eq_true]
    intro p hp
    obtain ⟨hb, he⟩ := renderPasses_index hl false p hp
    obtain ⟨e, hpe⟩ := Option.isSome_iff_exists.mp (hall p hp)
    have he' := he e hpe
    simp only [Function.comp, DumpRenderPass.isComplete, hpe, Option.getD_some, Bool.and_eq_true,
      bne_iff_ne]
    omega
  have hbegin : (entryOf cb l index).beginCommandBufferBlockIndex ≠ 0 := by
    obtain ⟨c, l, rfl⟩ := List.exists_cons_of_ne_nil hne
    have := hl c List.mem_cons_self
    simp only [entryOf, List.head?_cons, Option.map_some, Option.getD_some]
    omega
  have hsubmit : (entryOf cb l index).queueSubmitBlockIndex ≠ 0 := by
    simp only [entryOf]
    omega
  simp only [DumpEntry.isComplete, hpasses, Bool.and_true, Bool.and_eq_true, bne_iff_ne,
    Bool.not_eq_true', List.isEmpty_eq_false_iff]
  constructor
  · rintro ⟨⟨-, hp⟩, hd⟩
    exact ⟨by simpa [entryOf] using hp, hall, hd⟩
  · rintro ⟨hp, -, hd⟩
    exact ⟨⟨⟨hbegin, hsubmit⟩, by simpa [entryOf] using hp⟩, hd⟩

theorem queueSubmit_machineOf {ids : List HandleId} {submits : List SubmitInfo} {index : ℕ}
    (hreads : submittedHandles submits = ids.map some) (hcb : cb ∈ ids)
    (hcalls : ∀ c ∈ calls, 0 < c.index) (hindex : 0 < index) (hp : isPending cb calls)
    (hended : insidePass cb false (recording cb calls) = false) :
    (machineOf cb (recording cb calls)).queueSubmit index submits =
      some (.done (expectedEntry cb calls index)) := by
  have hl : ∀ c ∈ recording cb calls, 0 < c.index := fun c hc =>
    hcalls c ((List.sinceLast_suffix _ calls).subset hc)
  have hstate : (machineOf cb (recording cb calls)).state = .lookingForBeginRenderPass := by
    simp [machineOf, hended]
  have hcomplete := entryOf_isComplete hl (recording_ne_nil hp) hindex hended
  rw [StateMachine.queueSubmit, hstate, hreads, finds_of_mem (by exact hcb)]
  simp only [Option.map_some, if_true, StateMachine.done]
  rw [expectedEntry]
  simp only [hp, true_and]
  by_cases h : (entryOf cb (recording cb calls) index).isComplete
  · rw [if_pos (hcomplete.mp h)]
    exact congrArg some (if_pos h)
  · rw [if_neg (mt hcomplete.mpr h)]
    exact congrArg some (if_neg h)

theorem step_queueSubmit {submits : List SubmitInfo} (h : c.call = .queueSubmit submits)
    (hcalls : ∀ c ∈ calls, 0 < c.index) (hfits : Fits calls c) :
    (consumerOf calls).queueSubmit c.index submits = some (consumerOf (calls ++ [c])) := by
  have hids : c.submitted = submits.flatMap (·.commandBuffers) := by
    simp [ApiCall.submitted, h]
  have hreads := submittedHandles_eq (hfits.counts submits h)
  rw [← hids] at hreads
  rw [queueSubmit, hreads, foldlM_submitHandle fun cb => expectedEntry cb calls c.index]
  · refine congrArg some (DumpResourcesBuilderConsumer.ext (funext fun cb => ?_) ?_)
    · have hb : c.begins cb = false := by simp [ApiCall.begins, h]
      have hr : c.beginsRenderPass cb = false := by simp [ApiCall.beginsRenderPass, h]
      have he : c.endsRenderPass cb = false := by simp [ApiCall.endsRenderPass, h]
      have hd : c.draws cb = false := by simp [ApiCall.draws, h]
      by_cases hcb : cb ∈ c.submitted
      · simp [consumerOf, isPending_concat, ApiCall.submits, hcb, hb]
      · rw [incompleteDumps_of_not_concerns (by
          simp [ApiCall.concerns, ApiCall.submits, hb, hr, he, hd, hcb])]
        exact if_neg hcb
    · exact (found_concat).symm
  · intro cb hcb
    by_cases hp : isPending cb calls
    · exact .inr ⟨_, if_pos hp, queueSubmit_machineOf hreads hcb hcalls hfits.index_pos hp
        (hfits.ended cb hcb hp)⟩
    · exact .inl ⟨if_neg hp, by simp [expectedEntry, hp]⟩

/-- **One call.** -/
theorem step_consumerOf (hcalls : ∀ c ∈ calls, 0 < c.index) (hfits : Fits calls c) :
    (consumerOf calls).step c = some (consumerOf (calls ++ [c])) := by
  rw [step]
  cases h : c.call with
  | beginCommandBuffer cb => exact congrArg some (step_beginCommandBuffer h)
  | command cb cmd =>
    refine congrArg some (step_command h (fun hp hc => ?_) fun hp hc => ?_)
    · exact (hfits.version cb hp).1 (hc ▸ h)
    · exact (hfits.version cb hp).2 (hc ▸ h)
  | queueSubmit submits => exact step_queueSubmit h hcalls hfits
  | other =>
    refine congrArg some (DumpResourcesBuilderConsumer.ext (funext fun cb => ?_) ?_)
    · rw [incompleteDumps_of_not_concerns (by
        simp [ApiCall.concerns, ApiCall.begins, ApiCall.beginsRenderPass, ApiCall.endsRenderPass,
          ApiCall.draws, ApiCall.submits, ApiCall.submitted, h])]
    · simp [found_concat, entriesAt, ApiCall.submitted, h]

/-- **The consumer follows the calls.** -/
theorem run_eq (h : AllFit calls) :
    run calls = some (consumerOf calls) ∧ ∀ c ∈ calls, 0 < c.index := by
  induction calls using List.reverseRecOn with
  | nil => exact ⟨rfl, by simp⟩
  | append_singleton calls c ih =>
    obtain ⟨hcalls, hc⟩ := fitFrom_concat.mp h
    obtain ⟨hrun, hpos⟩ := ih hcalls
    constructor
    · rw [run, List.foldlM_append, ← run, hrun]
      simpa using step_consumerOf hpos hc
    · simpa [or_imp, forall_and] using And.intro hpos hc.index_pos

end Calls

/-! ## The entries of a command buffer -/

section Filter

variable (cb : HandleId)

theorem renderPasses_filter (b : Bool) (l : List ApiCall) :
    renderPasses cb b (l.filter (·.concerns cb)) = renderPasses cb b l := by
  have hfind : ∀ l : List ApiCall, (l.filter (·.concerns cb)).find? (·.endsRenderPass cb) =
      l.find? (·.endsRenderPass cb) := fun l => by
    rw [List.find?_filter]
    congr 1
    funext c
    cases he : c.endsRenderPass cb <;> simp [ApiCall.concerns, he]
  induction l generalizing b with
  | nil => rfl
  | cons c l ih =>
    by_cases hc : c.concerns cb
    · rw [List.filter_cons_of_pos hc]
      cases b <;> simp [renderPasses, ih, hfind]
    · have hc' := (Bool.not_eq_true _).mp hc
      simp only [ApiCall.concerns, Bool.or_eq_false_iff] at hc'
      rw [List.filter_cons_of_neg hc]
      cases b <;> simp [renderPasses, ih, hc']

theorem passDraws_filter (b : Bool) (l : List ApiCall) :
    passDraws cb b (l.filter (·.concerns cb)) = passDraws cb b l := by
  induction l generalizing b with
  | nil => rfl
  | cons c l ih =>
    by_cases hc : c.concerns cb
    · rw [List.filter_cons_of_pos hc]
      cases b <;> simp [passDraws, ih]
    · have hc' := (Bool.not_eq_true _).mp hc
      simp only [ApiCall.concerns, Bool.or_eq_false_iff] at hc'
      rw [List.filter_cons_of_neg hc]
      cases b <;> simp [passDraws, ih, hc']

theorem recording_filter (calls : List ApiCall) :
    recording cb (calls.filter (·.concerns cb)) = (recording cb calls).filter (·.concerns cb) :=
  List.sinceLast_filter _ (fun c hc => by simp [ApiCall.concerns, hc]) calls

theorem isPending_filter (calls : List ApiCall) :
    isPending cb (calls.filter (·.concerns cb)) = isPending cb calls := by
  have hany : ∀ p : ApiCall → Bool, (∀ c, p c → c.concerns cb) → ∀ l : List ApiCall,
      (l.filter (·.concerns cb)).any p = l.any p := fun p hp l => by
    rw [List.any_filter]
    congr 1
    funext c
    cases h : p c
    · simp
    · simp [hp c h]
  rw [isPending, isPending, recording_filter, hany _ fun c hc => by simp [ApiCall.concerns, hc],
    hany _ fun c hc => by simp [ApiCall.concerns, hc]]

/-- **The entry of a command buffer depends on the calls that concern it alone.** -/
theorem expectedEntry_filter (calls : List ApiCall) (submit : ℕ) :
    expectedEntry cb (calls.filter (·.concerns cb)) submit = expectedEntry cb calls submit := by
  have hentry : isPending cb calls → entryOf cb (recording cb (calls.filter (·.concerns cb))) submit =
      entryOf cb (recording cb calls) submit := fun hp => by
    have hany : calls.any (·.begins cb) := by
      obtain ⟨c, hc, hb⟩ := List.any_eq_true.mp (Bool.and_eq_true_iff.mp hp).1
      exact List.any_eq_true.mpr ⟨c, (List.sinceLast_suffix _ calls).subset hc, hb⟩
    obtain ⟨c, l, hcl, hb⟩ := List.sinceLast_eq_cons _ hany
    have hc : c.concerns cb := by simp [ApiCall.concerns, hb]
    simp only [entryOf, recording_filter, renderPasses_filter, passDraws_filter]
    simp [hcl, hc]
  rw [expectedEntry, expectedEntry, isPending_filter]
  simp only [recording_filter, renderPasses_filter, passDraws_filter]
  by_cases hp : isPending cb calls
  · rw [← recording_filter, hentry hp]
  · simp [hp]

end Filter

/-- **The consumer finds the entries of a capture whose calls fit**, and the entry of a command
buffer does not depend on the calls on others. -/
theorem found_eq_dumpEntries (calls : List ApiCall) (h : AllFit calls) :
    (run calls).map (·.found) = some (dumpEntries calls) ∧
      ∀ cb before submit, expectedEntry cb (before.filter (·.concerns cb)) submit =
        expectedEntry cb before submit := by
  rw [(run_eq h).1]
  exact ⟨rfl, expectedEntry_filter⟩

/-- One draw in a render pass of the command buffer `2`, behind blocks of the set-up. -/
def drawOnce : List ApiCall :=
  [⟨10, .beginCommandBuffer 2⟩, ⟨11, .command 2 (.beginRenderPass .core)⟩, ⟨12, .command 2 .draw⟩,
    ⟨13, .command 2 (.endRenderPass .core)⟩]

/-- The same number of command buffers in each `VkSubmitInfo`. -/
def evenSubmit : List ApiCall := drawOnce ++ [⟨14, .queueSubmit [⟨[1]⟩, ⟨[2]⟩]⟩]

theorem found_eq_dumpEntries_evenSubmit : AllFit evenSubmit ∧
    (run evenSubmit).map (·.found) = some (dumpEntries evenSubmit) ∧
      dumpEntries evenSubmit = [⟨10, [⟨11, 13⟩], [12], 14⟩] := by
  have h : AllFit evenSubmit := by
    refine ⟨?_, ?_, ?_, ?_, ?_, trivial⟩
    all_goals refine ⟨by decide, ?_, by decide, fun _ _ => ⟨nofun, nofun⟩⟩
    all_goals rintro submits ⟨⟩
    decide
  exact ⟨h, (found_eq_dumpEntries evenSubmit h).1, by decide⟩

/-- The second `VkSubmitInfo` has two command buffers, the first has one. -/
def unevenSubmit : List ApiCall := drawOnce ++ [⟨14, .queueSubmit [⟨[1]⟩, ⟨[3, 2]⟩]⟩]

/-- **The dump of its last command buffer is missed.** -/
theorem unevenSubmit_not_found : dumpEntries unevenSubmit = [⟨10, [⟨11, 13⟩], [12], 14⟩] ∧
    (run unevenSubmit).map (·.found) ≠ some (dumpEntries unevenSubmit) := by
  decide

end Dive.Gfxr
