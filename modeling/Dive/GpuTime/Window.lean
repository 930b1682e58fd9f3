import Dive.GpuTime.Csv
import Dive.GpuTime.Pairing
import Dive.Lib.Window

/-!
# The window of frame metrics

* `FrameMetrics.Op`: the frames that come, and `Reset`; `sinceReset`: the frames since the last
  reset, asked for or made by a change of the shape.
* `Windowed`: every queue of samples is over the same frames, in order.
* **`windowed_foldl`**: after any operations the queues are over the last 1000 frames since the last
  reset.
* `ReadsInside`: a boundary reads the render-pass slots of its frame in pairs.
* **`renderPassCounts_iff`**: where frames end outside their render passes, the render-pass counts
  are those of every frame of the window, in every state of a run, exactly when no frame distributes
  as many passes over as many command buffers in another way than the frame before it.
-/

namespace Dive

open GPUTime (FrameData)

namespace FrameMetrics

variable {τ : Type} {m : FrameMetrics τ} {data f : FrameData τ} {kept w : List (FrameData τ)}

/-! ## Operations -/

inductive Op (τ : Type)
  | addFrameData (data : FrameData τ)
  | reset

def apply (m : FrameMetrics τ) : Op τ → FrameMetrics τ
  | .addFrameData data => m.add data
  | .reset => m.reset

/-- As many command buffers and as many render passes. -/
def SameShape (f f' : FrameData τ) : Prop :=
  f.cmdsTime.length = f'.cmdsTime.length ∧ f.renderpassesTime.length = f'.renderpassesTime.length

instance (f f' : FrameData τ) : Decidable (SameShape f f') := inferInstanceAs (Decidable (_ ∧ _))

/-- A frame of another shape is a reset, too. -/
def keep (kept : List (FrameData τ)) : Op τ → List (FrameData τ)
  | .addFrameData data => if ∀ f ∈ kept, SameShape f data then kept ++ [data] else [data]
  | .reset => []

/-- The frames since the last reset. -/
def sinceReset (ops : List (Op τ)) : List (FrameData τ) := ops.foldl keep []

/-- Every queue has one sample of each frame, in order, and there are not too many. -/
structure Windowed (m : FrameMetrics τ) (w : List (FrameData τ)) : Prop where
  frameTime : m.frameTime = w.map (·.frameTime)
  cmdTimeVec : m.cmdTimeVec = List.columns m.cmdTimeVec.length (w.map (·.cmdsTime))
  renderpassTimeVec : m.renderpassTimeVec =
    List.columns m.renderpassTimeVec.length (w.map (·.renderpassesTime))
  fits : ∀ f ∈ w, f.cmdsTime.length = m.cmdTimeVec.length ∧
    f.renderpassesTime.length = m.renderpassTimeVec.length
  length_cmdTimeVec : ∀ times ∈ m.cmdTimeVec, times.length = m.frameTime.length
  length_renderpassTimeVec : ∀ times ∈ m.renderpassTimeVec, times.length = m.frameTime.length
  length_frameTime : m.frameTime.length ≤ kFrameMetricsLimit

/-! ## One frame -/

/-- The frame has a time for each queue. -/
def Fits (m : FrameMetrics τ) (f : FrameData τ) : Prop :=
  f.cmdsTime.length = m.cmdTimeVec.length ∧ f.renderpassesTime.length = m.renderpassTimeVec.length

theorem add_of_fits (h : m.Fits data) :
    m.add data =
      { frameTime := List.pushWithin kFrameMetricsLimit m.frameTime data.frameTime
        cmdRenderpassCountVec := m.cmdRenderpassCountVec
        cmdTimeVec := List.zipWith (fun times t => times ++ [t])
          (if m.frameTime.length = kFrameMetricsLimit then m.cmdTimeVec.map List.tail
            else m.cmdTimeVec) data.cmdsTime
        renderpassTimeVec := List.zipWith (fun times t => times ++ [t])
          (if m.frameTime.length = kFrameMetricsLimit then m.renderpassTimeVec.map List.tail
            else m.renderpassTimeVec) data.renderpassesTime } := by
  have hreset : ¬(m.cmdTimeVec.length ≠ data.cmdsTime.length ∨
      m.renderpassTimeVec.length ≠ data.renderpassesTime.length) := by
    rw [h.1, h.2]
    simp
  unfold add addFrameData List.pushWithin
  simp only [hreset, if_false]
  split_ifs <;> rfl

theorem add_of_not_fits (h : ¬ m.Fits data) :
    m.add data =
      { frameTime := [data.frameTime]
        cmdRenderpassCountVec := data.cmdRenderpassCountVec
        cmdTimeVec := List.columns data.cmdsTime.length [data.cmdsTime]
        renderpassTimeVec := List.columns data.renderpassesTime.length [data.renderpassesTime] } := by
  have hreset : m.cmdTimeVec.length ≠ data.cmdsTime.length ∨
      m.renderpassTimeVec.length ≠ data.renderpassesTime.length := by
    rw [← not_and_or]
    exact fun hc => h ⟨hc.1.symm, hc.2.symm⟩
  have hempty : ([] : List τ).length ≠ kFrameMetricsLimit := by
    rw [kFrameMetricsLimit]
    simp
  have hcolumns : ∀ row : List τ, List.columns row.length [row] =
      List.zipWith (fun times t => times ++ [t]) (List.replicate row.length []) row := fun row => by
    rw [← List.columns_nil, ← List.columns_concat rfl]
    rfl
  rw [add, addFrameData, if_pos hreset, hcolumns, hcolumns]
  simp only [reset, hempty, if_false]
  rfl

/-- What holds of the metrics beside the frames since the last reset. -/
structure Follows (m : FrameMetrics τ) (kept : List (FrameData τ)) : Prop where
  fits : ∀ f ∈ kept, m.Fits f
  frameTime : m.frameTime = (kept.rtake kFrameMetricsLimit).map (·.frameTime)
  cmdTimeVec : m.cmdTimeVec =
    List.columns m.cmdTimeVec.length ((kept.rtake kFrameMetricsLimit).map (·.cmdsTime))
  renderpassTimeVec : m.renderpassTimeVec = List.columns m.renderpassTimeVec.length
    ((kept.rtake kFrameMetricsLimit).map (·.renderpassesTime))

theorem follows_nil (hframe : m.frameTime = []) (hcmds : m.cmdTimeVec = [])
    (hpasses : m.renderpassTimeVec = []) : m.Follows [] where
  fits _ h := absurd h List.not_mem_nil
  frameTime := by rw [hframe, List.rtake_nil, List.map_nil]
  cmdTimeVec := by rw [hcmds, List.rtake_nil, List.map_nil, List.columns_nil]; rfl
  renderpassTimeVec := by rw [hpasses, List.rtake_nil, List.map_nil, List.columns_nil]; rfl

theorem Follows.keep_of_fits (h : m.Follows kept) (hfits : m.Fits data) :
    keep kept (.addFrameData data) = kept ++ [data] := by
  rw [keep, if_pos]
  intro f hf
  have hkept := h.fits f hf
  exact ⟨hkept.1.trans hfits.1.symm, hkept.2.trans hfits.2.symm⟩

theorem Follows.keep_of_not_fits (h : m.Follows kept) (hfits : ¬ m.Fits data) :
    keep kept (.addFrameData data) = [data] := by
  rw [keep]
  split_ifs with hshape
  · cases kept with
    | nil => rfl
    | cons f kept =>
      have hf := h.fits f List.mem_cons_self
      have hdata := hshape f List.mem_cons_self
      exact absurd ⟨hdata.1.symm.trans hf.1, hdata.2.symm.trans hf.2⟩ hfits
  · rfl

theorem columns_concat_frame {p : FrameData τ → List τ} {queues : List (List τ)} {n k : ℕ}
    (hqueues : queues = List.columns n ((kept.rtake kFrameMetricsLimit).map p))
    (hk : k = (kept.rtake kFrameMetricsLimit).length) (hkept : ∀ f ∈ kept, (p f).length = n)
    (hdata : (p data).length = n) :
    List.zipWith (fun times t => times ++ [t])
        (if k = kFrameMetricsLimit then queues.map List.tail else queues) (p data) =
      List.columns n (((kept ++ [data]).rtake kFrameMetricsLimit).map p) := by
  have hrows : ∀ row ∈ (kept.rtake kFrameMetricsLimit).map p, row.length = n := by
    intro row hrow
    obtain ⟨f, hf, rfl⟩ := List.mem_map.mp hrow
    exact hkept f ((List.rtake_suffix _ _).subset hf)
  rw [← List.pushWithin_rtake (by decide), List.map_pushWithin, List.columns_pushWithin hrows hdata,
    List.length_map, hqueues, hk]

/-- **A frame goes into every queue.** -/
theorem Follows.add (h : m.Follows kept) (data : FrameData τ) :
    (m.add data).Follows (keep kept (.addFrameData data)) := by
  by_cases hfits : m.Fits data
  · have hk : m.frameTime.length = (kept.rtake kFrameMetricsLimit).length := by
      rw [h.frameTime, List.length_map]
    have hcmds := columns_concat_frame h.cmdTimeVec hk (fun f hf => (h.fits f hf).1) hfits.1
    have hpasses := columns_concat_frame h.renderpassTimeVec hk (fun f hf => (h.fits f hf).2) hfits.2
    rw [h.keep_of_fits hfits, add_of_fits hfits, hcmds, hpasses]
    refine ⟨fun f hf => ?_, ?_, ?_, ?_⟩
    · rw [Fits, List.length_columns, List.length_columns]
      rcases List.mem_append.mp hf with hf | hf
      · exact h.fits f hf
      · rw [List.mem_singleton.mp hf]
        exact hfits
    · rw [h.frameTime, ← List.map_pushWithin, List.pushWithin_rtake (by decide)]
    · rw [List.length_columns]
    · rw [List.length_columns]
  · have hone : [data].rtake kFrameMetricsLimit = [data] :=
      List.rtake_of_length_le (by simp [kFrameMetricsLimit])
    rw [h.keep_of_not_fits hfits, add_of_not_fits hfits]
    refine ⟨fun f hf => ?_, ?_, ?_, ?_⟩
    · rw [List.mem_singleton.mp hf, Fits, List.length_columns, List.length_columns]
      exact ⟨rfl, rfl⟩
    · rw [hone, List.map_singleton]
    · rw [hone, List.length_columns, List.map_singleton]
    · rw [hone, List.length_columns, List.map_singleton]

/-- **The metrics follow any operations.** -/
theorem follows_foldl (ops : List (Op τ)) : Follows (ops.foldl apply {}) (sinceReset ops) := by
  induction ops using List.reverseRecOn with
  | nil => exact follows_nil rfl rfl rfl
  | append_singleton ops op ih =>
    rw [sinceReset, List.foldl_append, List.foldl_append]
    cases op with
    | addFrameData data => exact ih.add data
    | reset => exact follows_nil rfl rfl rfl

theorem Follows.length_of_mem (h : m.Follows kept) {p : FrameData τ → List τ}
    {queues : List (List τ)} {n : ℕ} {times : List τ}
    (hqueues : queues = List.columns n ((kept.rtake kFrameMetricsLimit).map p))
    (hkept : ∀ f ∈ kept, (p f).length = n) (hmem : times ∈ queues) :
    times.length = m.frameTime.length := by
  rw [hqueues] at hmem
  rw [h.frameTime, List.length_map, List.length_of_mem_columns _ hmem, List.length_map]
  intro row hrow
  obtain ⟨f, hf, rfl⟩ := List.mem_map.mp hrow
  exact hkept f ((List.rtake_suffix _ _).subset hf)

theorem Follows.windowed (h : m.Follows kept) : m.Windowed (kept.rtake kFrameMetricsLimit) where
  frameTime := h.frameTime
  cmdTimeVec := h.cmdTimeVec
  renderpassTimeVec := h.renderpassTimeVec
  fits f hf := h.fits f ((List.rtake_suffix _ _).subset hf)
  length_cmdTimeVec _ ht := h.length_of_mem h.cmdTimeVec (fun f hf => (h.fits f hf).1) ht
  length_renderpassTimeVec _ ht :=
    h.length_of_mem h.renderpassTimeVec (fun f hf => (h.fits f hf).2) ht
  length_frameTime := by
    rw [h.frameTime, List.length_map, List.length_rtake]
    exact min_le_right _ _

/-- **The queues are over the last frames since the last reset.** -/
theorem windowed_foldl (ops : List (Op τ)) :
    Windowed (ops.foldl apply {}) ((sinceReset ops).rtake kFrameMetricsLimit) :=
  (follows_foldl ops).windowed

/-! ## The counts of the render passes -/

/-- The operations that add these frames. -/
def adds (frames : List (FrameData τ)) : List (Op τ) := frames.map .addFrameData

theorem foldl_adds (frames : List (FrameData τ)) (m : FrameMetrics τ) :
    (adds frames).foldl apply m = frames.foldl add m := by
  rw [adds, List.foldl_map]
  rfl

/-- The counts are those of every frame that is aggregated. -/
def Attributed (m : FrameMetrics τ) (frames : List (FrameData τ)) : Prop :=
  ∀ f ∈ frames.rtake m.frameTime.length, m.cmdRenderpassCountVec = f.cmdRenderpassCountVec

instance (m : FrameMetrics τ) (frames : List (FrameData τ)) :
    Decidable (Attributed m frames) :=
  inferInstanceAs (Decidable (∀ f ∈ _, _))

/-- A frame of as many command buffers and render passes has the passes in the same places. -/
def Alike (f f' : FrameData τ) : Prop :=
  f.cmdRenderpassCountVec.length = f'.cmdRenderpassCountVec.length →
    f.cmdRenderpassCountVec.sum = f'.cmdRenderpassCountVec.sum →
      f.cmdRenderpassCountVec = f'.cmdRenderpassCountVec

theorem sinceReset_concat (frames : List (FrameData τ)) (data : FrameData τ) :
    sinceReset (adds (frames ++ [data])) = keep (sinceReset (adds frames)) (.addFrameData data) := by
  rw [sinceReset, adds, List.map_append, List.foldl_append]
  rfl

theorem sinceReset_suffix (frames : List (FrameData τ)) : sinceReset (adds frames) <:+ frames := by
  induction frames using List.reverseRecOn with
  | nil => exact List.suffix_rfl
  | append_singleton frames data ih =>
    rw [sinceReset_concat, keep]
    split_ifs
    · obtain ⟨l, hl⟩ := ih
      exact ⟨l, by rw [← List.append_assoc, hl]⟩
    · exact List.suffix_append _ _

theorem getLast?_sinceReset (frames : List (FrameData τ)) :
    (sinceReset (adds frames)).getLast? = frames.getLast? := by
  induction frames using List.reverseRecOn with
  | nil => rfl
  | append_singleton frames data ih =>
    rw [sinceReset_concat, keep]
    split_ifs <;> simp

theorem Follows.rtake_eq {frames : List (FrameData τ)} (h : m.Follows kept)
    (hkept : kept <:+ frames) :
    frames.rtake m.frameTime.length = kept.rtake kFrameMetricsLimit := by
  rw [h.frameTime, List.length_map, List.length_rtake, hkept.rtake_eq]

theorem follows_adds (frames : List (FrameData τ)) :
    Follows (frames.foldl add {}) (sinceReset (adds frames)) := by
  rw [← foldl_adds]
  exact follows_foldl _

theorem Alike.counts_eq (h : Alike f data) (hf : f.Balanced) (hdata : data.Balanced)
    (hfits : m.Fits f) (hfits' : m.Fits data) :
    f.cmdRenderpassCountVec = data.cmdRenderpassCountVec := by
  apply h
  · rw [hf.length, hdata.length, hfits.1, hfits'.1]
  · rw [hf.sum, hdata.sum, hfits.2, hfits'.2]

theorem counts_of_alike {frames : List (FrameData τ)} (hbalanced : ∀ f ∈ frames, f.Balanced)
    (halike : frames.IsChain Alike) : ∀ f ∈ sinceReset (adds frames),
      (frames.foldl add {}).cmdRenderpassCountVec = f.cmdRenderpassCountVec := by
  induction frames using List.reverseRecOn with
  | nil => exact fun f h => absurd h List.not_mem_nil
  | append_singleton frames data ih =>
    have hfollows := follows_adds frames
    have hcounts := ih (fun f hf => hbalanced f (List.mem_append_left _ hf))
      halike.left_of_append
    have hdata := hbalanced data (List.mem_append_right _ (List.mem_singleton_self data))
    rw [sinceReset_concat, List.foldl_concat]
    by_cases hfits : (frames.foldl add {}).Fits data
    · rw [hfollows.keep_of_fits hfits, add_of_fits hfits]
      suffices hnew : (frames.foldl add {}).cmdRenderpassCountVec = data.cmdRenderpassCountVec by
        intro f hf
        rcases List.mem_append.mp hf with hf | hf
        · exact hcounts f hf
        · rw [List.mem_singleton.mp hf]
          exact hnew
      cases hlast : frames.getLast? with
      | none =>
        -- no frame has come before, so this one has no command buffers
        rw [List.getLast?_eq_none_iff.mp hlast] at hfits ⊢
        have hlength := hdata.length.trans hfits.1
        exact (List.length_eq_zero_iff.mp hlength).symm
      | some f =>
        have hkept : f ∈ sinceReset (adds frames) :=
          List.mem_of_getLast? ((getLast?_sinceReset frames).trans hlast)
        have hf : f.Balanced :=
          hbalanced f (List.mem_append_left _ ((sinceReset_suffix frames).subset hkept))
        have hpair : Alike f data := (List.isChain_append.mp halike).2.2 f hlast data rfl
        rw [hcounts f hkept, hpair.counts_eq hf hdata (hfollows.fits f hkept) hfits]
    · rw [hfollows.keep_of_not_fits hfits, add_of_not_fits hfits]
      intro f hf
      rw [List.mem_singleton.mp hf]

theorem alike_of_attributed {frames : List (FrameData τ)} (hf : f.Balanced) (hdata : data.Balanced)
    (hlast : frames.getLast? = some f)
    (h : Attributed ((frames ++ [data]).foldl add {}) (frames ++ [data])) : Alike f data := by
  intro hlength hsum
  have hfollows := follows_adds frames
  have hkept : (sinceReset (adds frames)).getLast? = some f :=
    (getLast?_sinceReset frames).trans hlast
  obtain ⟨hcmds, hpasses⟩ := hfollows.fits f (List.mem_of_getLast? hkept)
  have hfits : (frames.foldl add {}).Fits data := by
    constructor
    · rw [← hdata.length, ← hlength, hf.length, hcmds]
    · rw [← hdata.sum, ← hsum, hf.sum, hpasses]
  rw [Attributed, (follows_adds (frames ++ [data])).rtake_eq (sinceReset_suffix _),
    sinceReset_concat, hfollows.keep_of_fits hfits] at h
  obtain ⟨l, hl⟩ := List.getLast?_eq_some_iff.mp hkept
  have hwindow : (sinceReset (adds frames) ++ [data]).rtake kFrameMetricsLimit =
      l.rtake 998 ++ [f] ++ [data] := by
    rw [hl]
    exact (List.rtake_concat_succ _ 999 _).trans
      (congrArg (· ++ [data]) (List.rtake_concat_succ l 998 f))
  rw [hwindow] at h
  exact (h f (by simp)).symm.trans (h data (by simp))

/-- **The counts are those of every frame of the window exactly when frames of one shape that
follow each other are alike.** -/
theorem forall_attributed_iff {frames : List (FrameData τ)} (hbalanced : ∀ f ∈ frames, f.Balanced) :
    (∀ l, l <+: frames → Attributed (l.foldl add {}) l) ↔ frames.IsChain Alike := by
  constructor
  · intro h
    induction frames using List.reverseRecOn with
    | nil => exact .nil
    | append_singleton frames data ih =>
      have hleft : ∀ f ∈ frames, f.Balanced := fun f hf => hbalanced f (List.mem_append_left _ hf)
      refine List.isChain_append.mpr ⟨ih hleft fun l hl => ?_, .singleton _, fun f hlast d hd => ?_⟩
      · exact h l (hl.trans (List.prefix_append _ _))
      · cases hd
        exact alike_of_attributed (hleft f (List.mem_of_getLast? hlast))
          (hbalanced _ (List.mem_append_right _ (List.mem_singleton_self _))) hlast
          (h _ List.prefix_rfl)
  · rintro halike l ⟨t, rfl⟩ f hf
    rw [(follows_adds l).rtake_eq (sinceReset_suffix l)] at hf
    exact counts_of_alike (fun f hf => hbalanced f (List.mem_append_left _ hf))
      halike.left_of_append f ((List.rtake_suffix _ _).subset hf)

end FrameMetrics

/-! ## Runs -/

namespace GPUTime

open FrameMetrics

variable {τ : Type} [Add τ] [Zero τ]

theorem metrics_start (elapsedTimeInMs : UInt64 → τ) (callbacks : List Callback) :
    ((start elapsedTimeInMs).run callbacks).metrics =
      ((start elapsedTimeInMs).frames callbacks).foldl add {} :=
  metrics_run callbacks (start elapsedTimeInMs)

theorem exists_prefix_frames (g : GPUTime τ) {callbacks : List Callback} {l : List (FrameData τ)}
    (h : l <+: g.frames callbacks) : ∃ before, before <+: callbacks ∧ g.frames before = l := by
  induction callbacks using List.reverseRecOn with
  | nil => exact ⟨[], List.prefix_rfl, (List.prefix_nil.mp h).symm⟩
  | append_singleton callbacks callback ih =>
    rw [frames_concat] at h
    by_cases hshort : l <+: g.frames callbacks
    · obtain ⟨before, hbefore, hl⟩ := ih hshort
      exact ⟨before, hbefore.trans (List.prefix_append _ _), hl⟩
    · refine ⟨callbacks ++ [callback], List.prefix_rfl, ?_⟩
      rw [frames_concat]
      cases hframe : (g.run callbacks).addedFrame callback with
      | none =>
        rw [hframe, Option.toList_none, List.append_nil] at h
        exact absurd h hshort
      | some data =>
        rw [hframe] at h
        exact ((List.prefix_concat_iff.mp h).resolve_right hshort).symm

/-- The boundary reads no render-pass slot past the end of a list: the lists of its command buffers
are of pairs. -/
def ReadsInside (g : GPUTime τ) (callback : Callback) : Prop :=
  g.isBoundary callback = true → g.validFrame = true → ∀ cmd ∈ g.frameCmds, ∀ info,
    g.cmds.lookup cmd = some info → Even info.renderpassSlots.length

theorem even_of_completePairs : ∀ {slots : List RenderPassSlot}, CompletePairs slots →
    Even slots.length
  | [], _ => Even.zero
  | _ :: _ :: _, h => (even_of_completePairs h.2.2).add even_two

end GPUTime

namespace Watched

variable {τ : Type} {w : Watched τ}

/-- A frame ends outside the render passes of its command buffers. -/
def EndsOutside (w : Watched τ) : Callback → Prop
  | .frameBoundary _ => w.OutsidePasses
  | .queuePresent _ => w.gpu.enable = true → w.OutsidePasses
  | _ => True

theorem EndsOutside.outsidePasses {callback : Callback} (h : w.EndsOutside callback)
    (hboundary : w.gpu.isBoundary callback = true) : w.OutsidePasses := by
  cases callback with
  | frameBoundary answers => exact h
  | queuePresent answers => exact h hboundary
  | _ => cases hboundary

variable [Add τ] [Zero τ]

theorem phased_foldl (elapsedTimeInMs : UInt64 → τ) (callbacks : List Callback) :
    let w := callbacks.foldl step (start elapsedTimeInMs)
    w.gpu.Cached ∧ w.gpu.Phased w.phase := by
  refine List.foldlRecOn callbacks step
    (motive := fun w : Watched τ => w.gpu.Cached ∧ w.gpu.Phased w.phase)
    ⟨GPUTime.cached_start elapsedTimeInMs, fun _ _ h => nomatch h⟩ fun w h callback _ => ?_
  exact ⟨GPUTime.cached_step h.1 callback, GPUTime.phased_step h.2 h.1 callback⟩

end Watched

namespace GPUTime

open FrameMetrics

variable {τ : Type} [Add τ] [Zero τ]

theorem readsInside_run {elapsedTimeInMs : UInt64 → τ} {callbacks before : List Callback}
    {callback : Callback}
    (h : Monitor.Along Watched.step Watched.EndsOutside (Watched.start elapsedTimeInMs) callbacks)
    (hbefore : before ++ [callback] <+: callbacks) :
    ((start elapsedTimeInMs).run before).ReadsInside callback := by
  obtain ⟨after, rfl⟩ := hbefore
  have hends := (Monitor.along_concat.mp h.of_append).2
  have hphased := (Watched.phased_foldl elapsedTimeInMs before).2
  have hgpu := Watched.gpu_foldl before (Watched.start elapsedTimeInMs)
  have houtside := fun hboundary => hends.outsidePasses hboundary
  intro hboundary hvalid cmd hcmd info hl
  rw [show (start elapsedTimeInMs).run before = _ from hgpu.symm] at hboundary hvalid hcmd hl
  have hphase := houtside hboundary hvalid cmd hcmd
  exact even_of_completePairs (PassPhase.completePairs ((hphased cmd info hl).symm.trans hphase))

/-- **In every state of a run whose frames end outside their render passes, no slot is read past the
end of a list, and the reported counts are those of the aggregated frames, exactly when frames of
one shape that follow each other are alike.** -/
theorem renderPassCounts_iff (elapsedTimeInMs : UInt64 → τ) (callbacks : List Callback)
    (hends : Monitor.Along Watched.step Watched.EndsOutside (Watched.start elapsedTimeInMs)
      callbacks) :
    ((∀ before callback, before ++ [callback] <+: callbacks →
        ((start elapsedTimeInMs).run before).ReadsInside callback) ∧
      ∀ before, before <+: callbacks →
        Attributed ((start elapsedTimeInMs).run before).metrics
          ((start elapsedTimeInMs).frames before)) ↔
      ((start elapsedTimeInMs).frames callbacks).IsChain Alike := by
  rw [← forall_attributed_iff fun f hf => balanced_frames callbacks _ hf]
  constructor
  · rintro ⟨-, h⟩ l hl
    obtain ⟨before, hbefore, rfl⟩ := exists_prefix_frames _ hl
    rw [← metrics_start]
    exact h before hbefore
  · refine fun h => ⟨fun before callback hbefore => readsInside_run hends hbefore, ?_⟩
    rintro before ⟨after, rfl⟩
    rw [metrics_start]
    exact h _ (by rw [frames_append]; exact List.prefix_append _ _)

/-- All time stamps are available. -/
def allAvailable : ℕ → QueryPoolResults := fun _ =>
  { result := vkSuccess, timestampsWithAvailability := fun i => UInt64.ofNat i }

/-- One render pass, in the first command buffer of a frame and in the second one of the next. -/
def movedPass : List Callback :=
  [.setEnable true, .allocateCommandBuffers .primary 1 [1, 2],
    .beginCommandBuffer 1 0, .beginRenderPass 1, .endRenderPass 1, .endCommandBuffer 1,
    .beginCommandBuffer 2 0, .endCommandBuffer 2, .queueSubmit [⟨some [1, 2]⟩],
    .frameBoundary allAvailable,
    .beginCommandBuffer 1 0, .endCommandBuffer 1,
    .beginCommandBuffer 2 0, .beginRenderPass 2, .endRenderPass 2, .endCommandBuffer 2,
    .queueSubmit [⟨some [1, 2]⟩], .frameBoundary allAvailable]

theorem movedPass_not_attributed :
    (((start UInt64.toNat).frames movedPass).map (·.cmdRenderpassCountVec) = [[1, 0], [0, 1]]) ∧
      ((start UInt64.toNat).run movedPass).metrics.cmdRenderpassCountVec = [1, 0] ∧
      ¬ ∀ before, before <+: movedPass →
        Attributed ((start UInt64.toNat).run before).metrics
          ((start UInt64.toNat).frames before) := by
  refine ⟨by decide +kernel, by decide +kernel, fun h => ?_⟩
  exact absurd (h movedPass List.prefix_rfl) (by decide +kernel)

/-- The frames of `movedPass` end outside their render passes, and are not alike. -/
theorem renderPassCounts_movedPass :
    ((∀ before callback, before ++ [callback] <+: movedPass →
        ((start UInt64.toNat).run before).ReadsInside callback) ∧
      ∀ before, before <+: movedPass →
        Attributed ((start UInt64.toNat).run before).metrics
          ((start UInt64.toNat).frames before)) ↔
      ((start UInt64.toNat).frames movedPass).IsChain Alike := by
  refine renderPassCounts_iff UInt64.toNat movedPass ⟨trivial, trivial, trivial, trivial, trivial,
    trivial, trivial, trivial, trivial, fun _ => ?_, trivial, trivial, trivial, trivial, trivial,
    trivial, trivial, fun _ => ?_, trivial⟩
  · decide +kernel
  · decide +kernel

end GPUTime

end Dive
