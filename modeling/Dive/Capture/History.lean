import Dive.Capture.Load
import Dive.Lib.Monitor
import Dive.Rd.Framing
import Dive.Rd.Heap

/-!
# Loading one capture after another

* `Gpu`: the GPU id and the register variant, which are globals of the process; `State`: them and
  the members of a `DataCore`.
* `Env`: the loaders and the creators that only depend on what they are given.
* `loadPm4CaptureData`, `loadDiveCaptureData`, `loadGfxrCaptureData`, and the functions that parse:
  as in the source. `load` is one of each.
* `outcome`: what a load yields, `after`: a process that has loaded a list of captures.
* `InFull`: the load reads all of its payloads; `Independent`: it does not depend on what the process
  has loaded before.
* **`outcome_independent`**: it yields what it does in a fresh process then, and only then unless a
  stale id makes it skip a chip id, whatever fresh memory holds in either process.
-/

namespace Dive

namespace DataCore

open Pm4CaptureData (GPUVariantType gpuVariantOf SetsId SkipsId ReadsInFull)
open DiveCapture (LoadResult)

/-- What `SetGPUID` sets. -/
structure Gpu where
  id : UInt32 := 0
  variant : GPUVariantType := .kGPUVariantNone
  deriving DecidableEq

/-- `Pm4CaptureData`. The `others` are the members that only a `.dive` file fills. -/
structure Pm4Data (D : Type) where
  submits : List Pm4CaptureData.SubmitInfo := []
  memory : MemoryManager := {}
  others : D

/-- `CaptureMetadata`. The `others` describe the shaders and the events. -/
structure CaptureMetadata (H R : Type) where
  commandHierarchy : H
  others : R

/-- The process. The default value of a type is that of a new object. -/
structure State (D G H R : Type) where
  gpu : Gpu
  diveCaptureData : Pm4Data D × G
  pm4CaptureData : Pm4Data D
  gfxrCaptureData : G
  captureMetadata : CaptureMetadata H R

/-- The file that is loaded as a `Pm4CaptureData`, by its extension. There is no archive where an
`.rd` file cannot be opened. -/
inductive Pm4File (File : Type)
  | rd (file : Option Archive)
  | dive (file : File)
  | unknown

/-- A capture. The PM4 data of a Dive capture are in an `.rd` file. -/
inductive Capture (File : Type)
  | pm4 (file : Pm4File File)
  | dive (rd : Option Archive) (gfxr : File)
  | gfxr (file : File)

/-- What is loaded for a capture. -/
inductive CaptureData (D G : Type)
  | pm4 (data : Pm4Data D)
  | dive (data : Pm4Data D × G)
  | gfxr (data : G)

/-- The loaders of the other files, from a new object, and the creators of the metadata. A creator
of a hierarchy starts from a new one; each yields what is there also if it fails. -/
structure Env (File D G H R : Type) where
  rd : Pm4CaptureData.LoadEnv
  loadDiveFile : File → LoadResult × Pm4Data D
  loadGfxrFile : File → LoadResult × G
  createMetaData : Gpu → Pm4Data D → R → Bool × R
  createPm4Hierarchy : Gpu → Pm4Data D → Bool × H
  createDiveHierarchy : Gpu → Pm4Data D × G → Bool × H
  createGfxrHierarchy : G → Bool × H

variable {File D G H R : Type} [Inhabited D] [Inhabited G] [Inhabited H] [Inhabited R]

instance : Inhabited (Pm4Data D) := ⟨{ others := default }⟩

instance : Inhabited (CaptureMetadata H R) := ⟨⟨default, default⟩⟩

/-- A fresh process. -/
def State.fresh : State D G H R := ⟨{}, default, default, default, default⟩

/-! ## The load functions -/

/-- What `Pm4CaptureData::LoadCaptureFile` leaves. -/
structure Loaded (D : Type) where
  result : LoadResult
  data : Pm4Data D
  gpu : Gpu

/-- The result of `LoadAdrenoRdFile`. -/
def resultOf : Pm4CaptureData.LoadResult → LoadResult
  | .kSuccess => .kSuccess
  | .kFileIoError => .kFileIoError
  | .kCorruptData => .kCorruptData

/-- A new object, before `LoadAdrenoRdFile`. -/
def rdState (gpu : Gpu) (file : Archive) : Pm4CaptureData.LoadState :=
  Pm4CaptureData.LoadState.withGpu { file := file } gpu.id gpu.variant

/-- What a load of an `.rd` file leaves; `none` if it does what has no meaning. -/
def loadedOf : Pm4CaptureData.Ending → Option (Loaded D)
  | .returns result s =>
    some ⟨resultOf result, ⟨s.submits, s.memory, default⟩, ⟨s.gpuId, s.gpuVariant⟩⟩
  | .undefined => none

variable (E : Env File D G H R)

/-- `LoadCaptureFile` of a new `Pm4CaptureData`. -/
def loadCaptureFile (gpu : Gpu) : Pm4File File → Option (Loaded D)
  | .rd none => some ⟨.kFileIoError, default, gpu⟩
  | .rd (some file) => loadedOf (Pm4CaptureData.loadAdrenoRdFile E.rd (rdState gpu file))
  | .dive file => some ⟨(E.loadDiveFile file).1, (E.loadDiveFile file).2, gpu⟩
  | .unknown => some ⟨.kCorruptData, default, gpu⟩

/-- `LoadPm4CaptureData`. -/
def loadPm4CaptureData (S : State D G H R) (file : Pm4File File) :
    Option (LoadResult × State D G H R) :=
  (loadCaptureFile E S.gpu file).map fun l =>
    (l.result, { S with gpu := l.gpu, pm4CaptureData := l.data, captureMetadata := default })

/-- `LoadFiles`. The second file is loaded if the first one is. -/
def loadFiles (l : Loaded D) (gfxr : File) : LoadResult × Pm4Data D × G :=
  if l.result = .kSuccess then
    ((E.loadGfxrFile gfxr).1, l.data, (E.loadGfxrFile gfxr).2)
  else (l.result, l.data, default)

/-- `LoadDiveCaptureData`. -/
def loadDiveCaptureData (S : State D G H R) (rd : Option Archive) (gfxr : File) :
    Option (LoadResult × State D G H R) :=
  (loadCaptureFile E S.gpu (.rd rd)).map fun l =>
    ((loadFiles E l gfxr).1,
      { S with
        gpu := l.gpu
        diveCaptureData := (loadFiles E l gfxr).2
        captureMetadata := default })

/-- `LoadGfxrCaptureData`. Unlike its siblings it keeps the metadata. -/
def loadGfxrCaptureData (S : State D G H R) (file : File) : LoadResult × State D G H R :=
  ((E.loadGfxrFile file).1, { S with gfxrCaptureData := (E.loadGfxrFile file).2 })

/-! ## The parse functions -/

/-- The metadata, and the hierarchy if they could be created. -/
def parse (S : State D G H R) (metaData : Bool × R) (hierarchy : Bool × H) :
    Bool × State D G H R :=
  if metaData.1 then (hierarchy.1, { S with captureMetadata := ⟨hierarchy.2, metaData.2⟩ })
  else (false, { S with captureMetadata := { S.captureMetadata with others := metaData.2 } })

/-- `ParsePm4CaptureData`. -/
def parsePm4CaptureData (S : State D G H R) : Bool × State D G H R :=
  parse S (E.createMetaData S.gpu S.pm4CaptureData S.captureMetadata.others)
    (E.createPm4Hierarchy S.gpu S.pm4CaptureData)

/-- `ParseDiveCaptureData`. -/
def parseDiveCaptureData (S : State D G H R) : Bool × State D G H R :=
  parse S (E.createMetaData S.gpu S.diveCaptureData.1 S.captureMetadata.others)
    (E.createDiveHierarchy S.gpu S.diveCaptureData)

/-- `ParseGfxrCaptureData`, which only creates the hierarchy. -/
def parseGfxrCaptureData (S : State D G H R) : Bool × State D G H R :=
  ((E.createGfxrHierarchy S.gfxrCaptureData).1,
    { S with captureMetadata :=
      { S.captureMetadata with commandHierarchy := (E.createGfxrHierarchy S.gfxrCaptureData).2 } })

/-! ## A load with its parse -/

/-- A capture is parsed once it is loaded. -/
def andParse (parse : State D G H R → Bool × State D G H R) (l : LoadResult × State D G H R) :
    LoadResult × Bool × State D G H R :=
  if l.1 = .kSuccess then (l.1, parse l.2) else (l.1, false, l.2)

/-- The load of a capture, with the calls that the callers make. -/
def load (S : State D G H R) : Capture File → Option (LoadResult × Bool × State D G H R)
  | .pm4 file => (loadPm4CaptureData E S file).map (andParse (parsePm4CaptureData E))
  | .dive rd gfxr => (loadDiveCaptureData E S rd gfxr).map (andParse (parseDiveCaptureData E))
  | .gfxr file => some (andParse (parseGfxrCaptureData E) (loadGfxrCaptureData E S file))

/-- The data of the capture that was loaded last. -/
def dataOf (S : State D G H R) : Capture File → CaptureData D G
  | .pm4 _ => .pm4 S.pm4CaptureData
  | .dive _ _ => .dive S.diveCaptureData
  | .gfxr _ => .gfxr S.gfxrCaptureData

/-- What a load yields: its results, the data, the id and the variant, and the metadata with the
hierarchy. -/
structure Outcome (D G H R : Type) where
  result : LoadResult
  parsed : Bool
  data : CaptureData D G
  gpu : Gpu
  metadata : CaptureMetadata H R

def outcomeOf (c : Capture File) (l : LoadResult × Bool × State D G H R) : Outcome D G H R :=
  ⟨l.1, l.2.1, dataOf l.2.2 c, l.2.2.gpu, l.2.2.captureMetadata⟩

def outcome (S : State D G H R) (c : Capture File) : Option (Outcome D G H R) :=
  (load E S c).map (outcomeOf c)

/-- The bytes of fresh memory during a load. -/
abbrev Heap : Type := Pm4CaptureData.LoadState → Buffer

/-- The loaders with these bytes in fresh memory. -/
def Env.withHeap (heap : Heap) : Env File D G H R := { E with rd := E.rd.withHeap heap }

/-- The process after it has loaded the captures, each with what fresh memory then holds. -/
def after (captures : List (Heap × Capture File)) : Option (State D G H R) :=
  Monitor.run (fun S c => (load (E.withHeap c.1) S c.2).map fun l => l.2.2) .fresh captures

/-! ## The GPU id -/

/-- The load of the file sets the GPU id, and skips no chip id before. -/
def SetsGpu (gpu : Gpu) : Pm4File File → Prop
  | .rd (some file) => SetsId E.rd (rdState gpu file)
  | _ => False

/-- The load of the file skips a chip id before it sets the GPU id. -/
def SkipsChipId (gpu : Gpu) : Pm4File File → Prop
  | .rd (some file) => SkipsId E.rd (rdState gpu file)
  | _ => False

/-- The load of the file reads its payloads in full. -/
def PayloadsInFull (gpu : Gpu) : Pm4File File → Prop
  | .rd (some file) => ReadsInFull E.rd (rdState gpu file)
  | _ => True

/-- The variant is that of the id. -/
def Gpu.Paired (gpu : Gpu) : Prop := gpu.variant = gpuVariantOf gpu.id

variable {E} {gpu : Gpu} {S u : State D G H R} {file : Pm4File File} {l : Loaded D} {heap : Heap}

theorem Gpu.Paired.eq_default (h : gpu.Paired) (h0 : gpu.id = 0) : gpu = {} := by
  have hvariant : gpu.variant = .kGPUVariantNone := by
    rw [h, h0]
    decide
  cases gpu
  simp_all

omit [Inhabited G] [Inhabited H] [Inhabited R] in
theorem loadCaptureFile_paired (hgpu : gpu.Paired)
    (h : loadCaptureFile E gpu file = some l) : l.gpu.Paired := by
  cases file with
  | dive file =>
    cases h
    exact hgpu
  | unknown =>
    cases h
    exact hgpu
  | rd archive =>
    cases archive with
    | none =>
      cases h
      exact hgpu
    | some archive =>
      have hleaves := Pm4CaptureData.load_paired (E := E.rd) (s := rdState gpu archive) hgpu
      rw [loadCaptureFile] at h
      cases hload : Pm4CaptureData.loadAdrenoRdFile E.rd (rdState gpu archive) with
      | undefined =>
        rw [hload] at h
        cases h
      | returns result s =>
        rw [hload] at h hleaves
        cases h
        exact hleaves

variable (heap) in
omit [Inhabited G] [Inhabited H] [Inhabited R] in
theorem loadCaptureFile_heap (hfull : PayloadsInFull E gpu file) :
    loadCaptureFile E gpu file = loadCaptureFile (E.withHeap heap) gpu file := by
  cases file with
  | dive file => rfl
  | unknown => rfl
  | rd archive =>
    cases archive with
    | none => rfl
    | some archive => exact congrArg loadedOf (Pm4CaptureData.load_heap _ hfull).symm

variable (heap) in
omit [Inhabited G] [Inhabited H] [Inhabited R] in
theorem loadCaptureFile_of_sets (hfull : PayloadsInFull E gpu file) (h : SetsGpu E gpu file) :
    loadCaptureFile E gpu file = loadCaptureFile (E.withHeap heap) {} file := by
  cases file with
  | dive file => exact h.elim
  | unknown => exact h.elim
  | rd archive =>
    cases archive with
    | none => exact h.elim
    | some archive =>
      have hload := Pm4CaptureData.load_fresh_of_setsId heap (s := rdState {} archive) rfl hfull h
      exact congrArg loadedOf hload

variable (heap) in
omit [Inhabited G] [Inhabited H] [Inhabited R] in
theorem loadCaptureFile_of_keeps (hfull : PayloadsInFull E gpu file) (hsets : ¬SetsGpu E gpu file)
    (hskips : ¬SkipsChipId E gpu file) :
    loadCaptureFile E gpu file =
        (loadCaptureFile (E.withHeap heap) {} file).map (fun l => { l with gpu := gpu }) ∧
      ∀ l, loadCaptureFile (E.withHeap heap) {} file = some l → l.gpu = {} := by
  cases file with
  | dive file =>
    refine ⟨rfl, fun l hl => ?_⟩
    cases hl
    rfl
  | unknown =>
    refine ⟨rfl, fun l hl => ?_⟩
    cases hl
    rfl
  | rd archive =>
    cases archive with
    | none =>
      refine ⟨rfl, fun l hl => ?_⟩
      cases hl
      rfl
    | some archive =>
      obtain ⟨hstale, hfresh⟩ := Pm4CaptureData.load_fresh_of_keeps heap
        (s := rdState {} archive) rfl hfull hsets hskips
      simp only [loadCaptureFile]
      rw [show Pm4CaptureData.loadAdrenoRdFile E.rd (rdState gpu archive) = _ from hstale,
        show (E.withHeap heap).rd = E.rd.withHeap heap from rfl]
      cases hload : Pm4CaptureData.loadAdrenoRdFile (E.rd.withHeap heap) (rdState {} archive) with
      | undefined =>
        refine ⟨rfl, fun l hl => ?_⟩
        cases hl
      | returns result s =>
        rw [hload] at hfresh
        refine ⟨rfl, fun l hl => ?_⟩
        cases hl
        injection hfresh with _ hs
        rw [hs]
        rfl

/-! ## What an outcome depends on -/

omit [Inhabited D] [Inhabited G] [Inhabited H] [Inhabited R] in
theorem parse_eq (S : State D G H R) (metaData : Bool × R) (hierarchy : Bool × H) :
    parse S metaData hierarchy = (metaData.1 && hierarchy.1, { S with
      captureMetadata := if metaData.1 then ⟨hierarchy.2, metaData.2⟩
        else { S.captureMetadata with others := metaData.2 } }) := by
  rw [parse]
  cases metaData.1 <;> rfl

theorem outcome_pm4 (E : Env File D G H R) (file : Pm4File File) :
    ∃ f : Loaded D → Outcome D G H R, (∀ l, (f l).gpu = l.gpu) ∧
      ∀ (heap : Heap) (S : State D G H R), outcome (E.withHeap heap) S (.pm4 file) =
        (loadCaptureFile (E.withHeap heap) S.gpu file).map f := by
  refine ⟨fun l => outcomeOf (.pm4 file) (andParse (parsePm4CaptureData E)
    (l.result, { State.fresh with gpu := l.gpu, pm4CaptureData := l.data })), fun l => ?_,
    fun heap S => ?_⟩
  · simp only [outcomeOf, andParse, parsePm4CaptureData, parse_eq]
    split_ifs <;> rfl
  · rw [outcome, load, loadPm4CaptureData, Option.map_map, Option.map_map]
    congr 1
    funext l
    simp only [Function.comp_apply, andParse, parsePm4CaptureData, parse_eq]
    by_cases hok : l.result = .kSuccess
    · simp only [if_pos hok]
      rfl
    · simp only [if_neg hok]
      rfl

theorem outcome_dive (E : Env File D G H R) (rd : Option Archive) (gfxr : File) :
    ∃ f : Loaded D → Outcome D G H R, (∀ l, (f l).gpu = l.gpu) ∧
      ∀ (heap : Heap) (S : State D G H R), outcome (E.withHeap heap) S (.dive rd gfxr) =
        (loadCaptureFile (E.withHeap heap) S.gpu (.rd rd)).map f := by
  refine ⟨fun l => outcomeOf (.dive rd gfxr) (andParse (parseDiveCaptureData E)
    ((loadFiles E l gfxr).1, { State.fresh with gpu := l.gpu
                                                diveCaptureData := (loadFiles E l gfxr).2 })),
    fun l => ?_, fun heap S => ?_⟩
  · simp only [outcomeOf, andParse, parseDiveCaptureData, parse_eq]
    split_ifs <;> rfl
  · rw [outcome, load, loadDiveCaptureData, Option.map_map, Option.map_map]
    congr 1
    funext l
    simp only [Function.comp_apply, andParse, parseDiveCaptureData, parse_eq]
    have hfiles : loadFiles (E.withHeap heap) l gfxr = loadFiles E l gfxr := rfl
    rw [hfiles]
    by_cases hok : (loadFiles E l gfxr).1 = .kSuccess
    · simp only [if_pos hok]
      rfl
    · simp only [if_neg hok]
      rfl

omit [Inhabited G] [Inhabited H] [Inhabited R] in
theorem same_of_sets {f : Loaded D → Outcome D G H R} (hfull : PayloadsInFull E gpu file)
    (hgpu : gpu.Paired) (h : gpu.id = 0 ∨ SetsGpu E gpu file) :
    (loadCaptureFile E gpu file).map f = (loadCaptureFile (E.withHeap heap) {} file).map f := by
  rcases h with h0 | hsets
  · rw [loadCaptureFile_heap heap hfull, hgpu.eq_default h0]
  · rw [loadCaptureFile_of_sets heap hfull hsets]

omit [Inhabited G] [Inhabited H] [Inhabited R] in
theorem sets_of_same {f : Loaded D → Outcome D G H R} (hfull : PayloadsInFull E gpu file)
    (hf : ∀ l, (f l).gpu = l.gpu)
    (h : (loadCaptureFile E gpu file).map f = (loadCaptureFile (E.withHeap heap) {} file).map f)
    (hdefined : (loadCaptureFile (E.withHeap heap) {} file).isSome) :
    (gpu.id = 0 ∨ SetsGpu E gpu file) ∨ SkipsChipId E gpu file := by
  by_cases hsets : SetsGpu E gpu file
  · exact .inl (.inr hsets)
  · by_cases hskips : SkipsChipId E gpu file
    · exact .inr hskips
    · obtain ⟨hstale, hfresh⟩ := loadCaptureFile_of_keeps heap hfull hsets hskips
      obtain ⟨l, hl⟩ := Option.isSome_iff_exists.mp hdefined
      rw [hstale, hl] at h
      have hgpus := congrArg Outcome.gpu (Option.some.inj h)
      rw [hf, hf, hfresh l hl] at hgpus
      exact .inl (.inl (congrArg Gpu.id hgpus))

/-! ## The histories -/

/-- The load does not depend on what the process has loaded before: the GPU id is that of a fresh
process, or the load sets it; a GFXR capture never does, and it needs new metadata. -/
def Independent (E : Env File D G H R) (S : State D G H R) : Capture File → Prop
  | .pm4 file => S.gpu.id = 0 ∨ SetsGpu E S.gpu file
  | .dive rd _ => S.gpu.id = 0 ∨ SetsGpu E S.gpu (.rd rd)
  | .gfxr file => S.gpu.id = 0 ∧ S.captureMetadata.others = default ∧
      ((E.loadGfxrFile file).1 = .kSuccess ∨ S.captureMetadata.commandHierarchy = default)

/-- The load reads its payloads in full. -/
def InFull (E : Env File D G H R) (S : State D G H R) : Capture File → Prop
  | .pm4 file => PayloadsInFull E S.gpu file
  | .dive rd _ => PayloadsInFull E S.gpu (.rd rd)
  | .gfxr _ => True

/-- A stale id makes the load skip a chip id. -/
def SkipsChip (E : Env File D G H R) (S : State D G H R) : Capture File → Prop
  | .pm4 file => SkipsChipId E S.gpu file
  | .dive rd _ => SkipsChipId E S.gpu (.rd rd)
  | .gfxr _ => False

theorem load_gpu_paired (hS : S.gpu.Paired) {c : Capture File}
    {r : LoadResult × Bool × State D G H R} (h : load E S c = some r) : r.2.2.gpu.Paired := by
  have hout : outcome E S c = some (outcomeOf c r) := congrArg (Option.map (outcomeOf c)) h
  cases c with
  | gfxr file =>
    cases h
    simp only [andParse]
    split_ifs <;> exact hS
  | pm4 file =>
    obtain ⟨f, hf, heq⟩ := outcome_pm4 E file
    rw [show outcome E S _ = _ from heq E.rd.heap S] at hout
    obtain ⟨l, hl, hfl⟩ := Option.map_eq_some_iff.mp hout
    have hgpu : r.2.2.gpu = l.gpu := (congrArg Outcome.gpu hfl).symm.trans (hf l)
    rw [hgpu]
    exact loadCaptureFile_paired hS hl
  | dive rd gfxr =>
    obtain ⟨f, hf, heq⟩ := outcome_dive E rd gfxr
    rw [show outcome E S _ = _ from heq E.rd.heap S] at hout
    obtain ⟨l, hl, hfl⟩ := Option.map_eq_some_iff.mp hout
    have hgpu : r.2.2.gpu = l.gpu := (congrArg Outcome.gpu hfl).symm.trans (hf l)
    rw [hgpu]
    exact loadCaptureFile_paired hS hl

theorem after_paired {captures : List (Heap × Capture File)} (h : after E captures = some S) : S.gpu.Paired := by
  refine Monitor.run_invariant (P := fun S => S.gpu.Paired) ?_ h fun c _ v w hv hw => ?_
  · show GPUVariantType.kGPUVariantNone = gpuVariantOf 0
    decide
  · obtain ⟨r, hr, rfl⟩ := Option.map_eq_some_iff.mp hw
    exact load_gpu_paired hv hr

theorem outcome_gfxr_of_loaded {file : File} (h : (E.loadGfxrFile file).1 = .kSuccess)
    (S : State D G H R) :
    outcome E S (.gfxr file) = some
      { result := .kSuccess
        parsed := (E.createGfxrHierarchy (E.loadGfxrFile file).2).1
        data := .gfxr (E.loadGfxrFile file).2
        gpu := S.gpu
        metadata := ⟨(E.createGfxrHierarchy (E.loadGfxrFile file).2).2,
          S.captureMetadata.others⟩ } := by
  rw [outcome, load, andParse, loadGfxrCaptureData, if_pos h, h]
  rfl

theorem outcome_gfxr_of_failed {file : File} (h : (E.loadGfxrFile file).1 ≠ .kSuccess)
    (S : State D G H R) :
    outcome E S (.gfxr file) = some
      { result := (E.loadGfxrFile file).1
        parsed := false
        data := .gfxr (E.loadGfxrFile file).2
        gpu := S.gpu
        metadata := S.captureMetadata } := by
  rw [outcome, load, andParse, loadGfxrCaptureData, if_neg h]
  rfl

variable (heap) in
theorem outcome_gfxr_iff (hS : S.gpu.Paired) (file : File) :
    outcome E S (.gfxr file) = outcome (E.withHeap heap) .fresh (.gfxr file) ↔
      Independent E S (.gfxr file) := by
  rw [show outcome (E.withHeap heap) .fresh (.gfxr file) =
    (outcome E .fresh (.gfxr file) : Option (Outcome D G H R)) from rfl]
  have hgpu : S.gpu = (State.fresh : State D G H R).gpu ↔ S.gpu.id = 0 :=
    ⟨fun h => congrArg Gpu.id h, hS.eq_default⟩
  by_cases hload : (E.loadGfxrFile file).1 = .kSuccess
  · simp only [outcome_gfxr_of_loaded hload, Independent, hload, true_or, and_true,
      Option.some.injEq, Outcome.mk.injEq, CaptureMetadata.mk.injEq, true_and, hgpu]
    rfl
  · simp only [outcome_gfxr_of_failed hload, Independent, hload, false_or, Option.some.injEq,
      Outcome.mk.injEq, true_and, hgpu]
    refine and_congr_right fun _ => ⟨fun h => ?_, fun ⟨hothers, hhierarchy⟩ => ?_⟩
    · rw [h]
      exact ⟨rfl, rfl⟩
    · exact congrArg₂ CaptureMetadata.mk hhierarchy hothers

/-- The other loaders find no file. Without a submit there are no packets, and the hierarchy is its
root node. -/
def plainEnv : Env Unit Unit Unit ℕ ℕ where
  rd := Pm4CaptureData.plainEnv
  loadDiveFile _ := (.kFileIoError, default)
  loadGfxrFile _ := (.kFileIoError, ())
  createMetaData _ _ _ := (true, 0)
  createPm4Hierarchy _ _ := (true, 1)
  createDiveHierarchy _ _ := (true, 1)
  createGfxrHierarchy _ := (false, 1)

/-- A file of one `RD_GPU_ID` block: the id 730. -/
def gpuIdFile : Archive :=
  Source.ofList (Pm4CaptureData.encode [Pm4CaptureData.gpuIdBlock])

/-- A file of one `RD_TEST` block. -/
def testFile : Archive := Source.ofList (Pm4CaptureData.encode Pm4CaptureData.testFile)

theorem nextHeader_gpuIdFile (gpu : Gpu) : ∃ t, Pm4CaptureData.nextHeader (rdState {} gpuIdFile) =
      .ok t ∧ Pm4CaptureData.sectType t.blockType = some .rdGpuId ∧
    Pm4CaptureData.nextHeader (rdState gpu gpuIdFile) = .ok (t.withGpu gpu.id gpu.variant) := by
  obtain ⟨t, ht, htype⟩ : ∃ t, Pm4CaptureData.nextHeader (rdState {} gpuIdFile) = .ok t ∧
      Pm4CaptureData.sectType t.blockType = some .rdGpuId := ⟨_, rfl, by decide⟩
  refine ⟨t, ht, htype, ?_⟩
  show Pm4CaptureData.nextHeader ((rdState {} gpuIdFile).withGpu gpu.id gpu.variant) = _
  rw [Pm4CaptureData.nextHeader_withGpu, ht]
  rfl

theorem setsGpu_gpuIdFile (gpu : Gpu) : SetsGpu plainEnv gpu (.rd (some gpuIdFile)) := by
  obtain ⟨t, -, htype, ht⟩ := nextHeader_gpuIdFile gpu
  exact .here ht (.inl htype)

theorem payloadsInFull_gpuIdFile (gpu : Gpu) :
    PayloadsInFull plainEnv gpu (.rd (some gpuIdFile)) := by
  obtain ⟨t, hfresh, htype, ht⟩ := nextHeader_gpuIdFile gpu
  have hblock : Pm4CaptureData.iteration plainEnv.rd (rdState gpu gpuIdFile) =
      Pm4CaptureData.iteration plainEnv.rd (rdState {} gpuIdFile) := by
    rw [Pm4CaptureData.iteration, Pm4CaptureData.iteration, ht, hfresh]
    exact Pm4CaptureData.loadBlock_of_sets ((Pm4CaptureData.nextHeader_own hfresh).2.2.trans rfl)
      (.inl htype)
  refine Pm4CaptureData.readsInFull_of (fun t' ht' => ?_) fun u hu => ?_
  · rw [← Except.ok.inj (ht.symm.trans ht')]
    exact ⟨fun h => (by cases htype.symm.trans h), fun h => (by cases htype.symm.trans h)⟩
  · -- nothing comes behind
    obtain ⟨v, e, hv, hend⟩ : ∃ v e,
        Pm4CaptureData.iteration plainEnv.rd (rdState {} gpuIdFile) = .ok v ∧
          Pm4CaptureData.nextHeader v = .error e := ⟨_, _, rfl, rfl⟩
    obtain rfl : v = u := Except.ok.inj (hv.symm.trans (hblock.symm.trans hu))
    refine Pm4CaptureData.readsInFull_of (fun t' ht' => ?_) fun w hw => ?_
    · cases hend.symm.trans ht'
    · rw [Pm4CaptureData.iteration, hend] at hw
      cases hw

end DataCore

end Dive
