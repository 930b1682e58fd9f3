import Mathlib.Data.Finset.Lattice.Lemmas
import Dive.Lib.Custody
import Dive.Replay.Consumer

/-!
# What a section leaves to the end of the frame

* `Outstanding`: what the calls of a section created and did not destroy, or began and did not end.
* `WellNamed`: the ids of the table are unique.
* `FdTable`, **`Kept`**: each descriptor obtained was released once, or it is open and on record.
* **`Pending`**: the actions are those of what is outstanding.

The lemmas of `Kept` and `Pending` say what the functions of the consumer do to them.
-/

namespace Dive.DiveVulkanReplayConsumer

/-! ## What is outstanding -/

structure Outstanding where
  objects : Finset Object := ∅
  begun : Finset HandleId := ∅

/-- An object that the replay creates is outstanding until a call destroys it. -/
def Outstanding.after (o : Outstanding) : Call → Outstanding
  | .create kind id _ replayed =>
    if replayed then { o with objects := insert (.resource kind id) o.objects } else o
  | .createFence id _ replayed _ _ =>
    if replayed then { o with objects := insert (.fence id) o.objects } else o
  | .destroy kind id => { o with objects := o.objects.erase (.resource kind id) }
  | .destroyFence id => { o with objects := o.objects.erase (.fence id) }
  | .beginCommandBuffer cb => { o with begun := insert cb o.begun }
  | .endCommandBuffer cb => { o with begun := o.begun.erase cb }
  | _ => o

/-- The effects from one state to a later one. -/
def since (before after : World) : List Effect := after.log.drop before.log.length

/-! ## The table -/

section Table

variable {w : World} {x : Object} {id : HandleId}

structure WellNamed (w : World) : Prop where
  ids : ∀ x ∈ w.live, ∀ y ∈ w.live, x.id = y.id → x = y
  named : ∀ x ∈ w.live, x.id ≠ 0 ∧ x.id ∉ w.commandBuffers
  buffers : (0 : HandleId) ∉ w.commandBuffers

namespace WellNamed

theorem of_eq {w' : World} (h : WellNamed w) (hlive : w'.live = w.live)
    (hbuffers : w'.commandBuffers = w.commandBuffers) : WellNamed w' := by
  obtain ⟨hids, hnamed, h0⟩ := h
  exact ⟨by rwa [hlive], by rwa [hlive, hbuffers], by rwa [hbuffers]⟩

theorem insert (h : WellNamed w) (hx : Fresh w x.id) :
    WellNamed { w with live := insert x w.live } := by
  obtain ⟨h0, hlive, hbuffers⟩ := hx
  refine ⟨fun y hy z hz hyz => ?_, fun y hy => ?_, h.buffers⟩
  · rcases Finset.mem_insert.mp hy with rfl | hy <;> rcases Finset.mem_insert.mp hz with hz | hz
    · exact hz.symm
    · exact absurd hyz.symm (hlive z hz)
    · exact absurd (hz ▸ hyz) (hlive y hy)
    · exact h.ids y hy z hz hyz
  · rcases Finset.mem_insert.mp hy with rfl | hy
    · exact ⟨h0, hbuffers⟩
    · exact h.named y hy

theorem erase (h : WellNamed w) : WellNamed { w with live := w.live.erase x } :=
  ⟨fun y hy z hz => h.ids y (Finset.mem_of_mem_erase hy) z (Finset.mem_of_mem_erase hz),
    fun y hy => h.named y (Finset.mem_of_mem_erase hy), h.buffers⟩

end WellNamed

theorem mem_foldl_insert {pool : HandleId} {buffers : List HandleId} :
    ∀ {m : AList fun _ : HandleId => HandleId},
      id ∈ buffers.foldl (fun m cb => m.insert cb pool) m ↔ id ∈ buffers ∨ id ∈ m := by
  induction buffers with
  | nil => simp
  | cons cb buffers ih =>
    intro m
    rw [List.foldl_cons, ih, AList.mem_insert, List.mem_cons]
    tauto

theorem mem_foldl_erase {buffers : List HandleId} :
    ∀ {m : AList fun _ : HandleId => HandleId},
      id ∈ buffers.foldl (fun m cb => m.erase cb) m ↔ id ∉ buffers ∧ id ∈ m := by
  induction buffers with
  | nil => simp
  | cons cb buffers ih =>
    intro m
    rw [List.foldl_cons, ih, AList.mem_erase, List.mem_cons]
    tauto

theorem WellNamed.allocate {pool : HandleId} {buffers : List HandleId} (h : WellNamed w)
    (hvalid : ∀ cb ∈ buffers, cb ≠ 0 ∧ ∀ x ∈ w.live, x.id ≠ cb) :
    WellNamed (w.allocate pool buffers) := by
  refine ⟨h.ids, fun y hy => ⟨(h.named y hy).1, fun hc => ?_⟩, fun hc => ?_⟩
  · rcases mem_foldl_insert.mp hc with hc | hc
    · exact (hvalid _ hc).2 y hy rfl
    · exact (h.named y hy).2 hc
  · rcases mem_foldl_insert.mp hc with hc | hc
    · exact (hvalid 0 hc).1 rfl
    · exact h.buffers hc

theorem WellNamed.free {buffers : List HandleId} (h : WellNamed w) :
    WellNamed (w.free buffers) :=
  ⟨h.ids, fun y hy => ⟨(h.named y hy).1, fun hc => (h.named y hy).2 (mem_foldl_erase.mp hc).2⟩,
    fun hc => h.buffers (mem_foldl_erase.mp hc).2⟩

end Table

/-! ## File descriptors -/

section Descriptors

/-- The records that are descriptors. -/
def Consumer.records (c : Consumer) : ℤ → Option ℤ :=
  fun k => (c.fdsToCloseAtFrameEnd.lookup k).filter (0 ≤ ·)

/-- The open descriptors by their numbers. -/
def World.opened (w : World) : ℤ → Option ℕ := fun fd => w.openFds.lookup fd

/-- Open numbers are of different descriptors. -/
structure FdTable (w : World) : Prop where
  nonneg : ∀ fd n, w.opened fd = some n → 0 ≤ fd
  below : ∀ fd n, w.opened fd = some n → n < w.descriptors
  distinct : ∀ fd fd' n, w.opened fd = some n → w.opened fd' = some n → fd = fd'

/-- How often a descriptor was closed or handed over. -/
def released (l : List Effect) (n : ℕ) : ℕ := l.count (.closed n) + l.count (.handedOver n)

/-- An effect that leaves the descriptors and the objects of `base` alone. -/
def Effect.Quiet (base : Finset Object) : Effect → Prop
  | .destroyed x => x ∉ base
  | .missing _ => True
  | .reset _ => True
  | _ => False

/-- Since `before`, each descriptor obtained was released once or is open and on record. -/
structure Kept (base : Finset Object) (before w : World) (record : ℤ → Option ℤ) : Prop where
  log : before.log <+: w.log
  nonneg : ∀ fd n, w.opened fd = some n → 0 ≤ fd
  held : Custody.Held before.descriptors w.descriptors (released (since before w)) record w.opened
  noBadClose : ∀ fd, .badClose fd ∉ since before w
  keepsSetup : ∀ x ∈ base, .destroyed x ∉ since before w

variable {base : Finset Object} {before w w' : World} {record : ℤ → Option ℤ} {l : List Effect}
  {k fd : ℤ} {n : ℕ}

theorem since_append (h : before.log <+: w.log) (hlog : w'.log = w.log ++ l) :
    since before w' = since before w ++ l := by
  rw [since, hlog, List.drop_append_of_le_length h.length_le]
  rfl

theorem since_self : since w w = [] := List.drop_length

theorem released_append (l l' : List Effect) (n : ℕ) :
    released (l ++ l') n = released l n + released l' n := by
  simp only [released, List.count_append]
  omega

theorem released_closed (l : List Effect) (n : ℕ) :
    released (l ++ [.closed n]) = Custody.bump n (released l) := by
  funext i
  rw [released_append]
  by_cases hi : i = n
  · simp [released, hi]
  · rw [Custody.bump_of_ne hi]
    simp [released, Ne.symm hi]

theorem released_handedOver (l : List Effect) (n : ℕ) :
    released (l ++ [.handedOver n]) = Custody.bump n (released l) := by
  funext i
  rw [released_append]
  by_cases hi : i = n
  · simp [released, hi]
  · rw [Custody.bump_of_ne hi]
    simp [released, Ne.symm hi]

theorem released_quiet (h : ∀ e ∈ l, e.Quiet base) : released l = fun _ => 0 := by
  funext i
  have hclosed : .closed i ∉ l := fun hc => h _ hc
  have hover : .handedOver i ∉ l := fun hc => h _ hc
  rw [released, List.count_eq_zero.mpr hclosed, List.count_eq_zero.mpr hover]

theorem opened_obtain (hfd : 0 ≤ fd) :
    (w.obtain fd).opened = Function.update w.opened fd (some w.descriptors) := by
  rw [World.obtain, if_pos hfd]
  exact Custody.lookup_insert_eq

@[simp] theorem log_obtain : (w.obtain fd).log = w.log := by
  unfold World.obtain
  split_ifs <;> rfl

@[simp] theorem live_obtain : (w.obtain fd).live = w.live := by
  unfold World.obtain
  split_ifs <;> rfl

@[simp] theorem commandBuffers_obtain : (w.obtain fd).commandBuffers = w.commandBuffers := by
  unfold World.obtain
  split_ifs <;> rfl

@[simp] theorem live_close : (w.close fd).live = w.live := by
  unfold World.close
  split
  · rfl
  · split_ifs <;> rfl

@[simp] theorem commandBuffers_close : (w.close fd).commandBuffers = w.commandBuffers := by
  unfold World.close
  split
  · rfl
  · split_ifs <;> rfl

@[simp] theorem live_importFd {replayed : Bool} : (w.importFd fd replayed).live = w.live := by
  unfold World.importFd
  cases replayed with
  | false => rfl
  | true => cases hopen : w.openFds.lookup fd <;> rfl

@[simp] theorem commandBuffers_importFd {replayed : Bool} :
    (w.importFd fd replayed).commandBuffers = w.commandBuffers := by
  unfold World.importFd
  cases replayed with
  | false => rfl
  | true => cases hopen : w.openFds.lookup fd <;> rfl

theorem opened_obtain_of_ne {v : ℤ} (hv : v ≠ fd) : (w.obtain fd).opened v = w.opened v := by
  by_cases hfd : 0 ≤ fd
  · rw [opened_obtain hfd, Function.update_of_ne hv]
  · rw [World.obtain, if_neg hfd]

theorem close_of_opened (h : w.opened fd = some n) :
    w.close fd = { w with openFds := w.openFds.erase fd }.record (.closed n) := by
  rw [World.close, show w.openFds.lookup fd = some n from h]

theorem opened_close (h : w.opened fd = some n) :
    (w.close fd).opened = Function.update w.opened fd none := by
  rw [close_of_opened h]
  exact Custody.lookup_erase_eq

theorem close_of_neg (h : w.opened fd = none) (hfd : ¬ 0 ≤ fd) : w.close fd = w := by
  rw [World.close, show w.openFds.lookup fd = none from h]
  exact if_neg hfd

namespace Kept

theorem start (h : FdTable w) : Kept base w w fun _ => none where
  log := List.prefix_rfl
  nonneg := h.nonneg
  held := by
    rw [since_self]
    exact Custody.Held.start h.below h.distinct
  noBadClose := fun fd => by simp [since_self]
  keepsSetup := fun x _ => by simp [since_self]

theorem fdTable (h : Kept base before w record) : FdTable w :=
  ⟨h.nonneg, h.held.below, h.held.distinct⟩

theorem quiet (h : Kept base before w record) (hlog : w'.log = w.log ++ l)
    (hl : ∀ e ∈ l, e.Quiet base) (hopened : w'.opened = w.opened)
    (hnext : w'.descriptors = w.descriptors) : Kept base before w' record := by
  have hsince := since_append h.log hlog
  have hreleased : released (since before w') = released (since before w) := by
    funext i
    rw [hsince, released_append, released_quiet hl, Nat.add_zero]
  refine ⟨?_, ?_, ?_, fun fd => ?_, fun x hx => ?_⟩
  · rw [hlog]
    exact h.log.trans (List.prefix_append _ _)
  · rw [hopened]
    exact h.nonneg
  · rw [hnext, hreleased, hopened]
    exact h.held
  · rw [hsince, List.mem_append, not_or]
    exact ⟨h.noBadClose fd, fun hc => hl _ hc⟩
  · rw [hsince, List.mem_append, not_or]
    exact ⟨h.keepsSetup x hx, fun hc => hl _ hc hx⟩

theorem opened_neg (h : Kept base before w record) (hfd : ¬ 0 ≤ fd) : w.opened fd = none := by
  cases hopen : w.opened fd with
  | none => rfl
  | some n => exact absurd (h.nonneg fd n hopen) hfd

theorem obtain (h : Kept base before w record) (hk : record k = none)
    (hfd : w.opened fd = none) :
    Kept base before (w.obtain fd) (Function.update record k (if 0 ≤ fd then some fd else none)) := by
  split_ifs with hpos
  · have hopened := opened_obtain (w := w) hpos
    have hnext : (w.obtain fd).descriptors = w.descriptors + 1 := by
      rw [World.obtain, if_pos hpos]
    have hsince : since before (w.obtain fd) = since before w := by
      rw [since, log_obtain]
      rfl
    refine ⟨log_obtain (w := w) ▸ h.log, fun v n hv => ?_, ?_, hsince ▸ h.noBadClose, hsince ▸ h.keepsSetup⟩
    · rw [hopened] at hv
      by_cases hvfd : v = fd
      · rwa [hvfd]
      · exact h.nonneg v n (by rwa [Function.update_of_ne hvfd] at hv)
    · rw [hopened, hnext, hsince]
      exact h.held.obtain hk hfd
  · rw [World.obtain, if_neg hpos, ← hk, Function.update_eq_self]
    exact h

theorem erase {e : Effect} (h : Kept base before w record)
    (he : e = .closed n ∨ e = .handedOver n) {record' : ℤ → Option ℤ}
    (hheld : Custody.Held before.descriptors w.descriptors
      (Custody.bump n (released (since before w))) record' (Function.update w.opened fd none)) :
    Kept base before ({ w with openFds := w.openFds.erase fd }.record e) record' := by
  have hopened : ({ w with openFds := w.openFds.erase fd }.record e : World).opened =
      Function.update w.opened fd none := Custody.lookup_erase_eq
  have hsince : since before ({ w with openFds := w.openFds.erase fd }.record e) =
      since before w ++ [e] := since_append h.log rfl
  have hreleased : released (since before w ++ [e]) =
      Custody.bump n (released (since before w)) := by
    rcases he with rfl | rfl
    · exact released_closed _ _
    · exact released_handedOver _ _
  refine ⟨h.log.trans (List.prefix_append _ _), fun v i hv => ?_, ?_, fun v => ?_, fun x hx => ?_⟩
  · rw [hopened] at hv
    exact h.nonneg v i (Custody.of_update_none hv).2
  · rw [hopened, hsince, hreleased]
    exact hheld
  · rw [hsince, List.mem_append, not_or]
    refine ⟨h.noBadClose v, fun hc => ?_⟩
    rcases he with rfl | rfl <;> cases List.mem_singleton.mp hc
  · rw [hsince, List.mem_append, not_or]
    refine ⟨h.keepsSetup x hx, fun hc => ?_⟩
    rcases he with rfl | rfl <;> cases List.mem_singleton.mp hc

/-- **A number on record is closed**, and taken off. -/
theorem close (h : Kept base before w record) (hk : record k = if 0 ≤ fd then some fd else none) :
    Kept base before (w.close fd) (Function.update record k none) := by
  split_ifs at hk with hpos
  · obtain ⟨n, -, hn⟩ := h.held.recorded k fd hk
    rw [close_of_opened hn]
    exact h.erase (.inl rfl) (h.held.release hk hn)
  · rw [close_of_neg (h.opened_neg hpos) hpos, ← hk, Function.update_eq_self]
    exact h

theorem replace {old : ℤ} (h : Kept base before w record)
    (hk : record k = if 0 ≤ old then some old else none) (hfd : w.opened fd = none) :
    Kept base before ((w.obtain fd).close old)
      (Function.update record k (if 0 ≤ fd then some fd else none)) := by
  have hclosed := h.close hk
  rw [← Function.update_idem]
  by_cases hold : 0 ≤ old
  · -- the two steps commute
    rw [if_pos hold] at hk
    obtain ⟨n, -, hn⟩ := h.held.recorded k old hk
    have hne : old ≠ fd := fun hc => by simp [← hc, hn] at hfd
    have hn' : (w.obtain fd).opened old = some n := by rw [opened_obtain_of_ne hne, hn]
    have hfd' : (w.close old).opened fd = none := by
      rw [opened_close hn, Function.update_of_ne hne.symm, hfd]
    refine (hclosed.obtain (Function.update_self ..) hfd').quiet (l := []) ?_ (by simp) ?_ ?_
    · rw [close_of_opened hn', log_obtain, close_of_opened hn]
      simp [World.record]
    · funext v
      rw [opened_close hn']
      by_cases hv : v = fd
      · rw [hv, Function.update_of_ne hne.symm]
        by_cases hpos : 0 ≤ fd
        · rw [opened_obtain hpos, opened_obtain hpos, Function.update_self, Function.update_self,
            close_of_opened hn]
          rfl
        · rw [World.obtain, if_neg hpos, World.obtain, if_neg hpos, hfd, hfd']
      · rw [opened_obtain_of_ne hv, opened_close hn]
        by_cases hvold : v = old
        · rw [hvold, Function.update_self, Function.update_self]
        · rw [Function.update_of_ne hvold, Function.update_of_ne hvold, opened_obtain_of_ne hv]
    · rw [close_of_opened hn', close_of_opened hn]
      unfold World.obtain
      split_ifs <;> rfl
  · have hneg : (w.obtain fd).opened old = none := by
      by_cases hpos : 0 ≤ fd
      · rw [opened_obtain_of_ne (by omega), h.opened_neg hold]
      · rw [World.obtain, if_neg hpos, h.opened_neg hold]
    rw [close_of_neg hneg hold]
    rw [close_of_neg (h.opened_neg hold) hold] at hclosed
    exact hclosed.obtain (Function.update_self ..) hfd

theorem importFd {replayed : Bool} (h : Kept base before w record)
    (hsame : ∀ v, record fd = some v → v = fd ∧ replayed = true)
    (honly : replayed = true → ∀ k, record k = some fd → k = fd) :
    Kept base before (w.importFd fd replayed) (Function.update record fd none) := by
  have hunrecorded (hfd : record fd = none) : Function.update record fd none = record := by
    rw [← hfd, Function.update_eq_self]
  unfold World.importFd
  cases replayed with
  | false =>
    have hfd : record fd = none := by
      cases hfd : record fd with
      | none => rfl
      | some v => exact absurd (hsame v hfd).2 (by simp)
    rw [hunrecorded hfd]
    exact h
  | true =>
    simp only [if_true]
    cases hopen : w.openFds.lookup fd with
    | none =>
      have hfd : record fd = none := by
        cases hfd : record fd with
        | none => rfl
        | some v =>
          obtain ⟨n, -, hn⟩ := h.held.recorded fd v hfd
          rw [(hsame v hfd).1, World.opened, hopen] at hn
          cases hn
      rw [hunrecorded hfd]
      exact h
    | some n =>
      cases hfd : record fd with
      | none =>
        rw [hunrecorded hfd]
        refine h.erase (.inr rfl) (h.held.releaseOther hopen fun k hk => ?_)
        rw [honly rfl k hk, hfd] at hk
        cases hk
      | some v =>
        refine h.erase (.inr rfl) (h.held.release ?_ hopen)
        rw [hfd, (hsame v hfd).1]

end Kept

end Descriptors

section Records

variable {c c' : Consumer} {k fd : ℤ}

theorem records_insert (h : c'.fdsToCloseAtFrameEnd = c.fdsToCloseAtFrameEnd.insert k fd) :
    c'.records = Function.update c.records k (if 0 ≤ fd then some fd else none) := by
  funext j
  unfold Consumer.records
  rw [h]
  by_cases hj : j = k
  · rw [hj, AList.lookup_insert, Function.update_self]
    simp [Option.filter]
  · rw [AList.lookup_insert_ne hj, Function.update_of_ne hj]

theorem records_erase (h : c'.fdsToCloseAtFrameEnd = c.fdsToCloseAtFrameEnd.erase k) :
    c'.records = Function.update c.records k none := by
  funext j
  unfold Consumer.records
  rw [h]
  by_cases hj : j = k
  · rw [hj, AList.lookup_erase, Function.update_self]
    rfl
  · rw [AList.lookup_erase_ne hj, Function.update_of_ne hj]

theorem records_of_lookup (h : c.fdsToCloseAtFrameEnd.lookup k = some fd) :
    c.records k = if 0 ≤ fd then some fd else none := by
  rw [Consumer.records, h]
  simp [Option.filter]

theorem records_of_lookup_none (h : c.fdsToCloseAtFrameEnd.lookup k = none) :
    c.records k = none := by
  rw [Consumer.records, h]
  rfl

end Records

/-! ## Actions -/

section Actions

/-- The actions are those of what is outstanding, and beside it there are the objects of `base`. -/
structure Pending (base : Finset Object) (c : Consumer) (o : Outstanding) : Prop where
  setupFinished : c.setupFinished = true
  live : c.world.live = base ∪ o.objects
  new : Disjoint base o.objects
  wellNamed : WellNamed c.world
  begun : ∀ cb ∈ o.begun, cb ∈ c.world.commandBuffers
  actions : ∀ id a, c.frameEndActions.lookup id = some a ↔
    (∃ x ∈ o.objects, x.id = id ∧ a = .destroy x) ∨ (id ∈ o.begun ∧ a = .reset id)
  deferred : ∀ id, id ∈ c.deferredReleaseList ↔ .fence id ∈ base

variable {base : Finset Object} {c c' : Consumer} {o : Outstanding} {x : Object} {id cb : HandleId}

theorem insertAction_of_notMem {a : Action} (hs : c.setupFinished = true)
    (hid : id ∉ c.frameEndActions) :
    c.insertAction id a = { c with frameEndActions := c.frameEndActions.insert id a } := by
  rw [Consumer.insertAction, if_pos ⟨hs, hid⟩]

namespace Pending

theorem of_eq (h : Pending base c o) (hs : c'.setupFinished = c.setupFinished)
    (hlive : c'.world.live = c.world.live)
    (hbuffers : c'.world.commandBuffers = c.world.commandBuffers)
    (hactions : ∀ id, c'.frameEndActions.lookup id = c.frameEndActions.lookup id)
    (hdeferred : c'.deferredReleaseList = c.deferredReleaseList) : Pending base c' o where
  setupFinished := hs.trans h.setupFinished
  live := hlive.trans h.live
  new := h.new
  wellNamed := h.wellNamed.of_eq hlive hbuffers
  begun := by
    rw [hbuffers]
    exact h.begun
  actions := fun id a => by
    rw [hactions]
    exact h.actions id a
  deferred := by
    rw [hdeferred]
    exact h.deferred

theorem mem_live (h : Pending base c o) (hx : x ∈ o.objects) : x ∈ c.world.live := by
  rw [h.live]
  exact Finset.mem_union_right _ hx

theorem id_ne (h : Pending base c o) (hx : x ∈ o.objects) (hcb : cb ∈ c.world.commandBuffers) :
    x.id ≠ cb := fun hid => (h.wellNamed.named x (h.mem_live hx)).2 (hid ▸ hcb)

theorem notMem_actions (h : Pending base c o) (hobjects : ∀ x ∈ o.objects, x.id ≠ id)
    (hbegun : id ∉ o.begun) : id ∉ c.frameEndActions := by
  rw [← AList.lookup_eq_none]
  cases ha : c.frameEndActions.lookup id with
  | none => rfl
  | some a =>
    rcases (h.actions id a).mp ha with ⟨x, hx, hid, -⟩ | ⟨hb, -⟩
    · exact absurd hid (hobjects x hx)
    · exact absurd hb hbegun

theorem notMem_of_fresh (h : Pending base c o) (hid : Fresh c.world id) :
    id ∉ c.frameEndActions :=
  h.notMem_actions (fun x hx => hid.2.1 x (h.mem_live hx)) fun hb => hid.2.2 (h.begun id hb)

theorem create (h : Pending base c o) (hx : Fresh c.world x.id)
    (hs : c'.setupFinished = c.setupFinished) (hlive : c'.world.live = insert x c.world.live)
    (hbuffers : c'.world.commandBuffers = c.world.commandBuffers)
    (hactions : c'.frameEndActions = c.frameEndActions.insert x.id (.destroy x))
    (hdeferred : c'.deferredReleaseList = c.deferredReleaseList) :
    Pending base c' { o with objects := insert x o.objects } := by
  have hfresh : ∀ y ∈ o.objects, y.id ≠ x.id := fun y hy => hx.2.1 y (h.mem_live hy)
  have hbegun : x.id ∉ o.begun := fun hb => hx.2.2 (h.begun x.id hb)
  refine ⟨hs.trans h.setupFinished, ?_, ?_, ?_, ?_, fun i a => ?_, ?_⟩
  · rw [hlive, h.live, Finset.union_insert]
  · refine Finset.disjoint_insert_right.mpr ⟨fun hb => ?_, h.new⟩
    exact hx.2.1 x (by rw [h.live]; exact Finset.mem_union_left _ hb) rfl
  · exact (h.wellNamed.insert hx).of_eq hlive hbuffers
  · rw [hbuffers]
    exact h.begun
  · rw [hactions]
    by_cases hi : i = x.id
    · rw [hi, AList.lookup_insert, Option.some.injEq]
      constructor
      · rintro rfl
        exact .inl ⟨x, Finset.mem_insert_self .., rfl, rfl⟩
      · rintro (⟨y, hy, hid, rfl⟩ | ⟨hb, -⟩)
        · rcases Finset.mem_insert.mp hy with rfl | hy
          · rfl
          · exact absurd hid (hfresh y hy)
        · exact absurd hb hbegun
    · rw [AList.lookup_insert_ne hi, h.actions]
      refine or_congr_left ⟨?_, ?_⟩
      · rintro ⟨y, hy, hid⟩
        exact ⟨y, Finset.mem_insert_of_mem hy, hid⟩
      · rintro ⟨y, hy, hid, ha⟩
        rcases Finset.mem_insert.mp hy with rfl | hy
        · exact absurd hid.symm hi
        · exact ⟨y, hy, hid, ha⟩
  · rw [hdeferred]
    exact h.deferred

theorem destroy (h : Pending base c o) (hx : x ∈ o.objects)
    (hs : c'.setupFinished = c.setupFinished) (hlive : c'.world.live = c.world.live.erase x)
    (hbuffers : c'.world.commandBuffers = c.world.commandBuffers)
    (hactions : ∀ i, c'.frameEndActions.lookup i = (c.frameEndActions.erase x.id).lookup i)
    (hdeferred : c'.deferredReleaseList = c.deferredReleaseList) :
    Pending base c' { o with objects := o.objects.erase x } := by
  have hbase : x ∉ base := fun hb => Finset.disjoint_left.mp h.new hb hx
  refine ⟨hs.trans h.setupFinished, ?_, ?_, ?_, ?_, fun i a => ?_, ?_⟩
  · rw [hlive, h.live, Finset.erase_union_distrib, Finset.erase_eq_of_notMem hbase]
  · exact Finset.disjoint_of_subset_right (Finset.erase_subset _ _) h.new
  · exact h.wellNamed.erase.of_eq hlive hbuffers
  · rw [hbuffers]
    exact h.begun
  · rw [hactions]
    by_cases hi : i = x.id
    · rw [hi, AList.lookup_erase]
      simp only [reduceCtorEq, false_iff, not_or]
      refine ⟨?_, fun hb => h.id_ne hx (h.begun _ hb.1) rfl⟩
      rintro ⟨y, hy, hid, -⟩
      have hyo := Finset.mem_of_mem_erase hy
      exact Finset.ne_of_mem_erase hy
        (h.wellNamed.ids y (h.mem_live hyo) x (h.mem_live hx) hid)
    · rw [AList.lookup_erase_ne hi, h.actions]
      refine or_congr_left ⟨?_, ?_⟩
      · rintro ⟨y, hy, hid, ha⟩
        exact ⟨y, Finset.mem_erase.mpr ⟨fun hyx => hi (hyx ▸ hid.symm), hy⟩, hid, ha⟩
      · rintro ⟨y, hy, hid⟩
        exact ⟨y, Finset.mem_of_mem_erase hy, hid⟩
  · rw [hdeferred]
    exact h.deferred

theorem began (h : Pending base c o) (hcb : cb ∈ c.world.commandBuffers) :
    Pending base (c.insertAction cb (.reset cb)) { o with begun := insert cb o.begun } := by
  have hnone : ∀ x ∈ o.objects, x.id ≠ cb := fun x hx => h.id_ne hx hcb
  by_cases hbegun : cb ∈ o.begun
  · -- the action is there
    have hmem : cb ∈ c.frameEndActions :=
      AList.lookup_isSome.mp (by rw [(h.actions cb _).mpr (.inr ⟨hbegun, rfl⟩)]; rfl)
    rw [Consumer.insertAction, if_neg fun hc => hc.2 hmem, Finset.insert_eq_of_mem hbegun]
    exact h
  · rw [insertAction_of_notMem h.setupFinished (h.notMem_actions hnone hbegun)]
    refine ⟨h.setupFinished, h.live, h.new, h.wellNamed, ?_, fun i a => ?_, h.deferred⟩
    · intro i hi
      rcases Finset.mem_insert.mp hi with rfl | hi
      · exact hcb
      · exact h.begun i hi
    · by_cases hi : i = cb
      · rw [hi, AList.lookup_insert, Option.some.injEq]
        constructor
        · rintro rfl
          exact .inr ⟨Finset.mem_insert_self .., rfl⟩
        · rintro (⟨x, hx, hid, -⟩ | ⟨-, rfl⟩)
          · exact absurd hid (hnone x hx)
          · rfl
      · rw [AList.lookup_insert_ne hi, h.actions]
        simp only [Finset.mem_insert, hi, false_or]

theorem ended (h : Pending base c o) (hcb : cb ∈ c.world.commandBuffers)
    (hs : c'.setupFinished = c.setupFinished) (hlive : c'.world.live = c.world.live)
    (hbuffers : c'.world.commandBuffers = c.world.commandBuffers)
    (hactions : c'.frameEndActions = c.frameEndActions.erase cb)
    (hdeferred : c'.deferredReleaseList = c.deferredReleaseList) :
    Pending base c' { o with begun := o.begun.erase cb } := by
  refine ⟨hs.trans h.setupFinished, hlive.trans h.live, h.new, h.wellNamed.of_eq hlive hbuffers,
    ?_, fun i a => ?_, ?_⟩
  · rw [hbuffers]
    exact fun i hi => h.begun i (Finset.mem_of_mem_erase hi)
  · rw [hactions]
    by_cases hi : i = cb
    · rw [hi, AList.lookup_erase]
      simp only [reduceCtorEq, false_iff, not_or]
      exact ⟨fun ⟨x, hx, hid, _⟩ => h.id_ne hx hcb hid, fun hb => by simp at hb⟩
    · rw [AList.lookup_erase_ne hi, h.actions]
      simp only [Finset.mem_erase, ne_eq, hi, not_false_eq_true, true_and]
  · rw [hdeferred]
    exact h.deferred

theorem buffers (h : Pending base c o) {w : World} (hlive : w.live = c.world.live)
    (hnamed : WellNamed w) (hbegun : ∀ cb ∈ o.begun, cb ∈ w.commandBuffers) :
    Pending base { c with world := w } o :=
  ⟨h.setupFinished, hlive.trans h.live, h.new, hnamed, hbegun, h.actions, h.deferred⟩

end Pending

end Actions

end Dive.DiveVulkanReplayConsumer
