import Dive.Pm4.Runs

/-!
# The order of the IBs of a submit

* `Runs.unique`: the calls of an IB are determined by the references of its packets.
* `submitStarts_of_submitRuns`: the IBs that a submit starts, with the index they are given.
* **`order_of_succeeds`**: a successful submit starts its IBs of nonzero size in order, and between
  the start and the end of an IB those that its packets reference.
-/

namespace Dive

/-- The entry and the index of an IB of the submit that starts. -/
def Event.submitStart : Event → Option (QueuedIb × ℕ)
  | .ibStart q ibIndex _ _ => if q.ibType = .kNormal then some (q, ibIndex) else none
  | _ => none

namespace Emulation

variable {E : Emulation} {ibs : List IndirectBufferInfo} {t t' : List Event} {ibIndex level : ℕ}
  {w : Work} {qs : List QueuedIb}

/-! ## The calls are determined -/

/-- **The references of the packets determine the calls.** -/
theorem Runs.unique (h : Runs E ibIndex level w t) : ∀ {t'}, Runs E ibIndex level w t' →
    t = t' := by
  induction h with
  | ended hend =>
    intro t' h'
    cases h' with
    | ended => rfl
    | packet hin => exact absurd hend hin
  | packet hin hp h ih =>
    intro t' h'
    cases h' with
    | ended hend => exact absurd hend hin
    | packet hin' hp' h' =>
      obtain ⟨-, rfl, rfl⟩ := hp.unique hp'
      rw [ih h']
  | called hc h₁ h₂ ih₁ ih₂ =>
    intro t' h'
    cases h' with
    | called hc' h₁' h₂' => rw [ih₁ h₁', ih₂ h₂']
    | chained hq hchain =>
      exact absurd hchain (hc _ (hq ▸ List.mem_singleton_self _)).2
  | chained hq hchain hend h ih =>
    intro t' h'
    cases h' with
    | called hc' => exact absurd hchain (hc' _ (hq ▸ List.mem_singleton_self _)).2
    | chained hq' hchain' hend' h' =>
      rw [hq, List.cons.injEq] at hq'
      obtain ⟨rfl, -⟩ := hq'
      rw [ih h']
  | nil =>
    intro t' h'
    cases h'
    rfl
  | cons h₁ h₂ ih₁ ih₂ =>
    intro t' h'
    cases h' with
    | cons h₁' h₂' => rw [ih₁ h₁', ih₂ h₂']

theorem SubmitRuns.unique (h : SubmitRuns E ibIndex qs t) : ∀ {t'}, SubmitRuns E ibIndex qs t' →
    t = t' := by
  induction h with
  | nil =>
    intro t' h'
    cases h'
    rfl
  | cons h₁ h₂ ih =>
    intro t' h'
    cases h' with
    | cons h₁' h₂' => rw [h₁.unique h₁', ih h₂']

/-! ## The IBs of the submit -/

/-- The work lists no IB of the submit. -/
def Work.NoNormal : Work → Prop
  | .ibs qs => ∀ q ∈ qs, q.ibType ≠ .kNormal
  | _ => True

theorem submitStart_enterEvent {q : QueuedIb} {ib : CurIb} :
    (enterEvent q ibIndex level ib).submitStart =
      if q.ibType = .kNormal then some (q, ibIndex) else none := rfl

theorem submitStarts_of_runs (h : Runs E ibIndex level w t) :
    w.NoNormal → t.filterMap Event.submitStart = [] := by
  induction h with
  | ended hend => exact fun _ => rfl
  | packet hin hp h ih =>
    intro _
    rw [List.filterMap_cons_none rfl]
    exact ih trivial
  | called hc h h' ih ih' =>
    intro _
    rw [List.filterMap_append, ih fun q hq => (hc q hq).1, ih' trivial, List.append_nil]
  | @chained level ib next refs q t hq hc hend h ih =>
    intro _
    have hn : q.ibType ≠ .kNormal := fun hn => IbType.noConfusion (hc.symm.trans hn)
    rw [List.filterMap_cons_none (submitStart_enterEvent.trans (if_neg hn)), ih trivial]
  | nil => exact fun _ => rfl
  | cons h h' ih ih' =>
    intro hqs
    obtain ⟨hq, hqs⟩ := List.forall_mem_cons.mp hqs
    rw [List.cons_append, List.filterMap_cons_none (submitStart_enterEvent.trans (if_neg hq)),
      List.filterMap_append, ih trivial, ih' hqs, List.append_nil]

theorem submitStarts_of_submitRuns (h : SubmitRuns E ibIndex qs t)
    (hqs : ∀ q ∈ qs, q.ibType = .kNormal) :
    t.filterMap Event.submitStart = qs.zipIdx ibIndex := by
  induction h with
  | nil => rfl
  | cons h h' ih =>
    obtain ⟨hq, hqs⟩ := List.forall_mem_cons.mp hqs
    rw [List.cons_append, List.filterMap_cons_some (submitStart_enterEvent.trans (if_pos hq)),
      List.filterMap_append, submitStarts_of_runs h trivial, ih hqs, List.nil_append,
      List.zipIdx_cons]

theorem getElem?_nonEmpty : ∀ {qs : List QueuedIb} {k : ℕ},
    (∀ q ∈ qs.take (k + 1), q.sizeInDwords ≠ 0) → (nonEmpty qs)[k]? = qs[k]?
  | [], k, _ => rfl
  | q :: qs, 0, h => by
    rw [nonEmpty_cons, if_neg (h q List.mem_cons_self)]
    rfl
  | q :: qs, k + 1, h => by
    rw [List.take_succ_cons] at h
    obtain ⟨hq, hqs⟩ := List.forall_mem_cons.mp h
    rw [nonEmpty_cons, if_neg hq, List.getElem?_cons_succ, List.getElem?_cons_succ]
    exact getElem?_nonEmpty hqs

/-- **The order of a successful submit.** The calls are those of the submit's IBs of nonzero size,
one after the other, and are determined by the references of the packets. These IBs start once
each, in order, and each with its position in the submit if no IB of size zero comes before it. -/
theorem order_of_succeeds (h : E.Succeeds ibs t) :
    (∀ t', SubmitRuns E 0 (nonEmpty (ibs.map (·.queued))) t' ↔ t' = t) ∧
    t.filterMap Event.submitStart = (nonEmpty (ibs.map (·.queued))).zipIdx ∧
    ∀ k info, ibs[k]? = some info → (∀ i ∈ ibs.take (k + 1), i.sizeInDwords ≠ 0) →
      (t.filterMap Event.submitStart)[k]? = some (info.queued, k) := by
  have hruns := submitRuns_of_succeeds h
  have hstarts : t.filterMap Event.submitStart = (nonEmpty (ibs.map (·.queued))).zipIdx := by
    refine submitStarts_of_submitRuns hruns fun q hq => ?_
    obtain ⟨info, -, rfl⟩ := List.mem_map.mp (mem_nonEmpty.mp hq).1
    rfl
  refine ⟨fun t' => ⟨fun h' => h'.unique hruns, fun h' => h' ▸ hruns⟩, hstarts, ?_⟩
  intro k info hk hsize
  have hget : (nonEmpty (ibs.map (·.queued)))[k]? = some info.queued := by
    rw [getElem?_nonEmpty, List.getElem?_map, hk]
    · rfl
    · intro q hq
      rw [← List.map_take] at hq
      obtain ⟨i, hi, rfl⟩ := List.mem_map.mp hq
      exact hsize i hi
  rw [hstarts, List.getElem?_zipIdx, hget]
  simp

/-! ## IBs of size zero -/

/-- At `0x1000`, a call of an IB of size zero. -/
def emptyCall : Emulation := accepting [.ofDwords 0x1000 [0x70bf8003, 0x3000, 0, 0]]

/-- An IB of size zero, and the IB with the call. -/
def emptyCallIbs : List IndirectBufferInfo :=
  [{ vaAddr := 0x3000, sizeInDwords := 0 }, { vaAddr := 0x1000, sizeInDwords := 4 }]

def emptyCallTrace : List Event := [
  .ibStart ⟨.kNormal, 0x1000, 4, false, 7⟩ 0 ⟨0x1000, 4, 1, 7, false⟩ .kNormal,
  .packet 0 0x1000 ⟨0x70bf8003⟩,
  .ibEnd 0 ⟨0x1000, 4, 0, 0, false⟩]

theorem emptyCall_succeeds : emptyCall.Succeeds emptyCallIbs emptyCallTrace := by
  have h : emptyCall.successTrace emptyCallIbs 5 = some emptyCallTrace := by rfl
  exact succeeds_of_successTrace h

/-- The IB with the call is alone in its submit. -/
theorem order_emptyCallTrace :
    emptyCallTrace.filterMap Event.submitStart = [(⟨.kNormal, 0x1000, 4, false, 7⟩, 0)] ∧
    ∀ t', SubmitRuns emptyCall 0 [⟨.kNormal, 0x1000, 4, false, 7⟩] t' ↔ t' = emptyCallTrace := by
  obtain ⟨hruns, hstarts, -⟩ := order_of_succeeds emptyCall_succeeds
  exact ⟨hstarts, hruns⟩

/-- **IBs of size zero do not start**, neither those of the submit nor those that a packet
references, and the second IB of the submit is given index 0. -/
theorem emptyCall_passedOver : emptyCall.Succeeds emptyCallIbs emptyCallTrace ∧
    emptyCallTrace.filterMap Event.submitStart ≠ (emptyCallIbs.map (·.queued)).zipIdx ∧
    emptyCallTrace.filterMap Event.submitStart = [(⟨.kNormal, 0x1000, 4, false, 7⟩, 0)] ∧
    emptyCall.packetRefs ⟨0x70bf8003⟩ 0x1000 = [⟨.kCall, 0x3000, 0, false, 7⟩] :=
  ⟨emptyCall_succeeds, by decide, rfl, by decide⟩

end Emulation

end Dive
