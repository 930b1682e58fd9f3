import Dive.Capture.Load
import Mathlib.Data.List.TakeWhile

/-!
# The blocks of a `.dive` file

* `Payload`: the payload of a block, by its parts; `Payload.WellFormed` is the layout of the capture
  format.
* `Payload.WithinLimits`: the payloads that the handlers do not refuse.
* `Payload.TakenWhole`: the payloads that their handlers read to the end.
* `LaidOut`: the bytes that a handler takes for a payload, by their layout.
* **`loadBlock_reads`**, `loadBlock_fails`, `loadBlock_stopsShort`: what a handler makes of a payload.
* **`exists_reads_iff`**: a handler takes exactly what is laid out.
-/

namespace Dive.DiveCapture

open Reader

/-! ## Payloads -/

/-- The payload of a block. The name in a text block is without its terminator, the registers are
names without the terminator and values, the metadata are headers and blobs. -/
inductive Payload
  | memoryAlloc (header allocations : List UInt8)
  | submit (header : List UInt8) (ibs : List (List UInt8))
  | memoryRaw (header data : List UInt8)
  | present (data : List UInt8)
  | waveState (header : List UInt8) (waves : List WaveStateInfo)
  | text (header name data : List UInt8)
  | registers (header : List UInt8) (regs : List (List UInt8 × List UInt8))
  | vulkanMetadata (header : List UInt8) (metadata : List (List UInt8 × List UInt8))
  | unknown (data : List UInt8)

def WaveStateInfo.bytes (w : WaveStateInfo) : List UInt8 := w.state ++ (w.sgprs ++ (w.vgprs ++ w.ttmps))

def registerBytes (reg : List UInt8 × List UInt8) : List UInt8 := reg.1 ++ [0] ++ reg.2

/-- A wave: its state, the registers that the state counts, the temporary registers. -/
structure WaveStateInfo.WellFormed (h : CaptureDataHeader) (w : WaveStateInfo) : Prop where
  state : w.state.length = sizeofWaveState
  sgprs : w.sgprs.length = leNat w.state 4 4 * 4
  vgprs : w.vgprs.length = leNat w.state 8 4 * 4
  ttmps : w.ttmps.length = if h.hasTemps w.state then 16 * 4 else 0

/-- The registers of a wave are not too many. -/
def WaveStateInfo.WithinLimits (w : WaveStateInfo) : Prop :=
  leNat w.state 4 4 ≤ kMaxNumSGPRPerWave ∧ leNat w.state 8 4 ≤ kMaxNumVGPRPerWave

namespace Payload

/-- The type of the block; `none` for one that `LoadCapture` does not know. -/
def type? : Payload → Option BlockType
  | memoryAlloc _ _ => some .kMemoryAlloc
  | submit _ _ => some .kSubmit
  | memoryRaw _ _ => some .kMemoryRaw
  | present _ => some .kPresent
  | waveState _ _ => some .kWaveState
  | text _ _ _ => some .kText
  | registers _ _ => some .kRegisters
  | vulkanMetadata _ _ => some .kVulkanMetadata
  | unknown _ => none

def bytes : Payload → List UInt8
  | memoryAlloc header allocations => header ++ allocations
  | submit header ibs => header ++ ibs.flatMap id
  | memoryRaw header data => header ++ data
  | present data => data
  | waveState header waves => header ++ waves.flatMap WaveStateInfo.bytes
  | text header name data => header ++ (name ++ [0] ++ data)
  | registers header regs => header ++ regs.flatMap registerBytes
  | vulkanMetadata header metadata => header ++ metadata.flatMap fun m => m.1 ++ m.2
  | unknown data => data

/-- **The layout of a payload**, as the capture format describes it. -/
def WellFormed (h : CaptureDataHeader) : Payload → Prop
  | memoryAlloc header allocations =>
    header.length = sizeofMemoryAllocationsDataHeader ∧
      allocations.length = leNat header 0 4 * sizeofMemoryAllocationData
  | submit header ibs =>
    header.length = sizeofSubmitDataHeader ∧ ibs.length = leNat header 0 1 ∧
      ∀ ib ∈ ibs, ib.length = sizeofIndirectBufferData
  | memoryRaw header data =>
    header.length = sizeofMemoryRawDataHeader ∧ data.length = leNat header 8 4
  | present data => data.length = sizeofPresentData
  | waveState header waves =>
    header.length = sizeofWaveStateBlockHeader ∧ waves.length = leNat header 0 4 ∧
      ∀ w ∈ waves, w.WellFormed h
  | text header name data =>
    header.length = sizeofTextBlockHeader ∧ name.length + 1 = leNat header 0 4 ∧
      data.length = leNat header 8 8
  | registers header regs =>
    header.length = sizeofRegisterBlockHeader ∧ regs.length = leNat header 0 4 ∧
      ∀ reg ∈ regs, 0 ∉ reg.1 ∧ reg.2.length = 4
  | vulkanMetadata header metadata =>
    header.length = 16 ∧ metadata.length = leNat header 4 4 ∧
      ∀ m ∈ metadata, m.1.length = 8 ∧ m.2.length = leNat m.1 4 4
  | unknown _ => h.laterCapture

/-- The handler does not refuse the payload for its counts. -/
def WithinLimits : Payload → Prop
  | memoryAlloc header _ => leNat header 0 4 ≤ kMaxNumMemAlloc
  | memoryRaw header _ => leNat header 8 4 ≤ kMaxMemAllocSize
  | waveState header waves =>
    leNat header 0 4 ≤ kMaxNumWavesPerBlock ∧ ∀ w ∈ waves, w.WithinLimits
  | text header _ _ => leNat header 0 4 ≤ kMaxStrLen ∧ leNat header 8 8 ≤ kMaxMemAllocSize
  | _ => True

/-- **The handler reads the payload to its end**: the name of a text has no zero byte before its
terminator, the block is not one of Vulkan metadata, and its size is an offset of the stream. -/
def TakenWhole : Payload → Prop
  | text _ name _ => 0 ∉ name
  | vulkanMetadata _ _ => False
  | unknown data => data.length < 2 ^ 63
  | _ => True

/-- The parts as a handler delimits them: the name of a text by its zero byte, of Vulkan metadata
nothing. -/
def Framed (h : CaptureDataHeader) : Payload → Prop
  | text header name data =>
    header.length = sizeofTextBlockHeader ∧ 0 ∉ name ∧ data.length = leNat header 8 8
  | vulkanMetadata header metadata => header = [] ∧ metadata = []
  | p => p.WellFormed h

/-- The text that the length fields of a block delimit. -/
def text? : Payload → Option TextInfo
  | text _ name data => some ⟨name, data.length, data⟩
  | _ => none

theorem WellFormed.framed {p : Payload} {h : CaptureDataHeader} (hp : p.WellFormed h)
    (hwhole : p.TakenWhole) : p.Framed h := by
  cases p with
  | text header name data => exact ⟨hp.1, hwhole, hp.2.2⟩
  | vulkanMetadata header metadata => exact hwhole.elim
  | _ => exact hp

end Payload

/-- **The bytes are a payload of a type**, with counts that are not refused. -/
def LaidOut (h : CaptureDataHeader) (type : BlockType) (l : List UInt8) : Prop :=
  ∃ p : Payload, p.type? = some type ∧ p.Framed h ∧ p.WithinLimits ∧ l = p.bytes

/-! ## Reads -/

variable {l line : List UInt8} {n : ℕ}

theorem read_reads (h : l.length = n) : (read n).Reads l l := by
  intro before after
  show read n (before ++ l ++ after) before.length = _
  rw [read, if_pos (by simp [← h])]
  simp [← h]

theorem getline_reads (h : 0 ∉ line) : getline.Reads (line ++ [0]) line := by
  intro before after
  have hline : ((before ++ (line ++ [0]) ++ after).drop before.length).takeWhile (· != 0) = line := by
    rw [List.append_assoc, List.drop_left, List.append_assoc, List.takeWhile_append_of_pos]
    · simp
    · intro b hb
      simpa using fun h0 : b = 0 => h (h0 ▸ hb)
  show getline (before ++ (line ++ [0]) ++ after) before.length = _
  rw [getline]
  simp only [hline]
  rw [if_pos (by simp)]
  simp [Nat.add_assoc]

theorem fail_fails {α : Type} : (fail : StreamReader α).Fails l () := fun _ _ => rfl

theorem read_takes (n : ℕ) : Takes (read n) fun a l => a = l ∧ l.length = n := by
  intro src offset a offset' hoff h
  have h : read n src offset = .ok (a, offset') := h
  rw [read] at h
  split_ifs at h with hle
  cases h
  have hlen : ((src.drop offset).take n).length = n := by simp; omega
  refine ⟨(src.drop offset).take n, ?_, by omega, hle, rfl, hlen⟩
  rw [← List.drop_drop, List.take_append_drop]

theorem getline_takes : Takes getline fun a l => l = a ++ [0] ∧ 0 ∉ a := by
  intro src offset a offset' hoff h
  have h : getline src offset = .ok (a, offset') := h
  rw [getline] at h
  split_ifs at h with hlt
  cases h
  have hsplit := List.takeWhile_append_dropWhile (p := (· != 0)) (l := src.drop offset)
  have hzero : 0 ∉ (src.drop offset).takeWhile (· != 0) := fun h0 => by
    have := List.mem_takeWhile_imp h0
    simp at this
  generalize (src.drop offset).takeWhile (· != 0) = line at *
  cases hd : (src.drop offset).dropWhile (· != 0) with
  | nil =>
    rw [hd, List.append_nil] at hsplit
    have := congrArg List.length hsplit
    rw [List.length_drop] at this
    omega
  | cons b rest =>
    have hb : b = 0 := by
      have hne : (src.drop offset).dropWhile (· != 0) ≠ [] := by simp [hd]
      have := List.head_dropWhile_not (· != 0) hne
      simpa [hd] using this
    rw [hd, hb] at hsplit
    refine ⟨line ++ [0], ?_, by simp [Nat.add_assoc], by omega, rfl, hzero⟩
    rw [Nat.add_assoc, ← List.drop_drop, ← hsplit]
    simp

/-! ## What the handlers make of a payload -/

section Handlers

variable {c : CaptureContents} {h : CaptureDataHeader} {header data name : List UInt8}

theorem loadWave_reads {w : WaveStateInfo} (hw : w.WellFormed h) (hlim : w.WithinLimits) :
    (loadWave h).Reads w.bytes w := by
  refine (read_reads hw.state).bind ?_
  rw [if_neg (by have := hlim.1; have := hlim.2; omega)]
  exact (read_reads hw.sgprs).bind ((read_reads hw.vgprs).bind (read_reads hw.ttmps).bind_pure)

theorem loadWave_fails {w : WaveStateInfo} (hw : w.WellFormed h) (hlim : ¬ w.WithinLimits) :
    (loadWave h).Fails w.bytes () := by
  refine Fails.bind_right (read_reads hw.state) ?_
  rw [if_pos (by rw [WaveStateInfo.WithinLimits] at hlim; omega)]
  exact fail_fails

theorem loadRegister_reads {reg : List UInt8 × List UInt8} (hname : 0 ∉ reg.1)
    (hvalue : reg.2.length = 4) :
    loadRegister.Reads (registerBytes reg) (reg.1, leNat reg.2 0 4) :=
  (getline_reads hname).bind (read_reads hvalue).bind_pure

theorem loadTextBlock_stopsShort {line rest : List UInt8} (hline : 0 ∉ line)
    (hheader : header.length = sizeofTextBlockHeader) (hdata : data.length = leNat header 8 8)
    (hlim : leNat header 0 4 ≤ kMaxStrLen ∧ leNat header 8 8 ≤ kMaxMemAllocSize) :
    ∃ l l' c', header ++ ((line ++ 0 :: rest) ++ [0] ++ data) = l ++ l' ∧ l' ≠ [] ∧
      (loadTextBlock c).Reads l c' := by
  have hlen : ((rest ++ [0] ++ data).take data.length).length = leNat header 8 8 := by
    rw [List.length_take, ← hdata, List.length_append]
    omega
  refine ⟨header ++ ((line ++ [0]) ++ (rest ++ [0] ++ data).take data.length),
    (rest ++ [0] ++ data).drop data.length,
    { c with texts := c.texts ++
      [⟨line, leNat header 8 8, (rest ++ [0] ++ data).take data.length⟩] },
    ?split, ?left, (read_reads hheader).bind ?reads⟩
  case split => simp [List.take_append_drop]
  case left =>
    apply List.ne_nil_of_length_pos
    rw [List.length_drop, List.length_append, List.length_append, List.length_singleton]
    omega
  case reads =>
    rw [if_neg (by omega)]
    exact (getline_reads hline).bind (read_reads hlen).bind_pure

/-- **A payload that is taken.** -/
theorem loadBlock_reads {p : Payload} {type : BlockType} (hp : p.Framed h)
    (htype : p.type? = some type) (hlim : p.WithinLimits) :
    ∃ c', (loadBlock c h type).Reads p.bytes c' ∧ c'.texts = c.texts ++ p.text?.toList := by
  cases p with
  | memoryAlloc header allocations =>
    cases htype
    obtain ⟨hheader, hall⟩ := hp
    have hlim : leNat header 0 4 ≤ kMaxNumMemAlloc := hlim
    refine ⟨?_, (read_reads hheader).bind ?_, ?_⟩
    rotate_left
    · rw [if_neg (by omega)]
      refine (read_reads ?_).bind_pure
      rw [hall, Nat.mod_eq_of_lt]
      rw [kMaxNumMemAlloc] at hlim
      rw [sizeofMemoryAllocationData]
      omega
    · exact (List.append_nil _).symm
  | submit header ibs =>
    cases htype
    obtain ⟨hheader, hnum, hall⟩ := hp
    have hibs := @Reads.times _ _ _ _ id _ fun ib hib => read_reads (hall ib hib)
    rw [hnum] at hibs
    refine ⟨?_, (read_reads hheader).bind ?_, ?_⟩
    rotate_left
    · exact hibs.bind_pure
    · exact (List.append_nil _).symm
  | memoryRaw header data =>
    cases htype
    obtain ⟨hheader, hdata⟩ := hp
    have hlim : leNat header 8 4 ≤ kMaxMemAllocSize := hlim
    refine ⟨?_, (read_reads hheader).bind ?_, ?_⟩
    rotate_left
    · rw [if_neg (by omega)]
      exact (read_reads hdata).bind_pure
    · exact (List.append_nil _).symm
  | present data =>
    cases htype
    refine ⟨?_, ?_, ?_⟩
    rotate_left
    · exact (read_reads hp).bind_pure
    · exact (List.append_nil _).symm
  | waveState header waves =>
    cases htype
    obtain ⟨hheader, hnum, hall⟩ := hp
    have hwaves := Reads.times fun w hw => loadWave_reads (hall w hw) (hlim.2 w hw)
    rw [hnum] at hwaves
    refine ⟨?_, (read_reads hheader).bind ?_, ?_⟩
    rotate_left
    · rw [if_neg (by have := hlim.1; omega)]
      exact hwaves.bind_pure
    · exact (List.append_nil _).symm
  | text header name data =>
    cases htype
    obtain ⟨hheader, hname, hdata⟩ := hp
    refine ⟨{ c with texts := c.texts ++ [⟨name, leNat header 8 8, data⟩] },
      (read_reads hheader).bind ?_, ?_⟩
    · rw [if_neg (by have := hlim.1; have := hlim.2; omega)]
      exact (getline_reads hname).bind (read_reads hdata).bind_pure
    · rw [← hdata]
      rfl
  | registers header regs =>
    cases htype
    obtain ⟨hheader, hnum, hall⟩ := hp
    have hregs := Reads.times_map fun reg hreg =>
      loadRegister_reads (hall reg hreg).1 (hall reg hreg).2
    rw [hnum] at hregs
    refine ⟨?_, (read_reads hheader).bind ?_, ?_⟩
    rotate_left
    · exact hregs.bind_pure
    · exact (List.append_nil _).symm
  | vulkanMetadata header metadata =>
    cases htype
    obtain ⟨rfl, rfl⟩ := hp
    exact ⟨c, Reads.pure, (List.append_nil _).symm⟩
  | unknown data => cases htype

/-- **A payload that is refused.** -/
theorem loadBlock_fails {p : Payload} {type : BlockType} (hp : p.WellFormed h)
    (htype : p.type? = some type) (hlim : ¬ p.WithinLimits) :
    (loadBlock c h type).Fails p.bytes () := by
  cases p with
  | memoryAlloc header allocations =>
    cases htype
    have hlim : ¬ leNat header 0 4 ≤ kMaxNumMemAlloc := hlim
    refine Fails.bind_right (read_reads hp.1) ?_
    rw [if_pos (by omega)]
    exact fail_fails
  | memoryRaw header data =>
    cases htype
    have hlim : ¬ leNat header 8 4 ≤ kMaxMemAllocSize := hlim
    refine Fails.bind_right (read_reads hp.1) ?_
    rw [if_pos (by omega)]
    exact fail_fails
  | waveState header waves =>
    cases htype
    obtain ⟨hheader, hnum, hall⟩ := hp
    refine Fails.bind_right (read_reads hheader) ?_
    by_cases hmany : kMaxNumWavesPerBlock < leNat header 0 4
    · rw [if_pos hmany]
      exact fail_fails
    · rw [if_neg hmany]
      have hbad : ∃ w ∈ waves, ¬ w.WithinLimits := by
        by_contra hc
        exact hlim ⟨by omega, fun w hw => by_contra fun hw' => hc ⟨w, hw, hw'⟩⟩
      have htimes := Fails.times_of_mem (P := WaveStateInfo.WithinLimits)
        (fun w hw hlim => loadWave_reads (hall w hw) hlim)
        (fun w hw hlim => loadWave_fails (hall w hw) hlim) hbad
      rw [hnum] at htimes
      exact htimes.bind
  | text header name data =>
    cases htype
    have hlim : ¬ (leNat header 0 4 ≤ kMaxStrLen ∧ leNat header 8 8 ≤ kMaxMemAllocSize) := hlim
    refine Fails.bind_right (read_reads hp.1) ?_
    rw [if_pos (by omega)]
    exact fail_fails
  | _ => exact absurd trivial hlim

/-- **A payload that is taken in part.** -/
theorem loadBlock_stopsShort {p : Payload} {type : BlockType} (hp : p.WellFormed h)
    (htype : p.type? = some type) (hlim : p.WithinLimits) (hwhole : ¬ p.TakenWhole) :
    ∃ l l' c', p.bytes = l ++ l' ∧ l' ≠ [] ∧ (loadBlock c h type).Reads l c' := by
  cases p with
  | text header name data =>
    cases htype
    have hname : 0 ∈ name := not_not.mp hwhole
    obtain ⟨line, rest, rfl, hline⟩ := List.eq_append_cons_of_mem hname
    exact loadTextBlock_stopsShort hline hp.1 hp.2.2 hlim
  | vulkanMetadata header metadata =>
    cases htype
    refine ⟨[], _, c, (List.nil_append _).symm, ?_, Reads.pure⟩
    apply List.ne_nil_of_length_pos
    rw [Payload.bytes, List.length_append, hp.1]
    omega
  | unknown data => cases htype
  | _ => exact absurd trivial hwhole

theorem loadWave_takes : Takes (loadWave h) fun w l =>
    l = w.bytes ∧ w.WellFormed h ∧ w.WithinLimits := by
  refine ((read_takes sizeofWaveState).bind fun state => Takes.ite (fun _ => Takes.throw ()) fun hlim =>
    (read_takes _).bind fun sgprs => (read_takes _).bind fun vgprs => (read_takes _).bind fun ttmps =>
      Takes.pure (P := fun (w : WaveStateInfo) l => l = [] ∧ w = ⟨state, sgprs, vgprs, ttmps⟩ ∧
        ¬ (kMaxNumSGPRPerWave < leNat state 4 4 ∨ kMaxNumVGPRPerWave < leNat state 8 4))
        ⟨rfl, rfl, hlim⟩).mono ?_
  rintro w l ⟨state, _, _, rfl, ⟨rfl, hstate⟩, sgprs, _, _, rfl, ⟨rfl, hsgprs⟩, vgprs, _, _, rfl,
    ⟨rfl, hvgprs⟩, ttmps, _, _, rfl, ⟨rfl, httmps⟩, rfl, rfl, hlim⟩
  refine ⟨?_, ⟨hstate, hsgprs, hvgprs, httmps⟩, ?_⟩
  · rw [List.append_nil]
    rfl
  · rw [not_or, not_lt, not_lt] at hlim
    exact hlim

theorem loadRegister_takes : Takes loadRegister fun _ l =>
    ∃ reg, l = registerBytes reg ∧ 0 ∉ reg.1 ∧ reg.2.length = 4 := by
  refine (getline_takes.bind fun name => (read_takes 4).bind fun value =>
    Takes.pure (P := fun _ l => l = []) rfl).mono ?_
  rintro reg l ⟨name, _, _, rfl, ⟨rfl, hname⟩, value, _, _, rfl, ⟨rfl, hvalue⟩, rfl⟩
  exact ⟨(name, value), by rw [List.append_nil]; rfl, hname, hvalue⟩

theorem exists_flatMap {α γ : Type} {P : α → List UInt8 → Prop} (enc : γ → List UInt8)
    {Q : γ → Prop} (hP : ∀ a l, P a l → ∃ x, l = enc x ∧ Q x) {as : List α}
    {parts : List (List UInt8)} (hparts : List.Forall₂ P as parts) :
    ∃ xs : List γ, xs.length = as.length ∧ parts.flatten = xs.flatMap enc ∧ ∀ x ∈ xs, Q x := by
  induction hparts with
  | nil => exact ⟨[], rfl, rfl, by simp⟩
  | cons ha _ ih =>
    obtain ⟨x, rfl, hx⟩ := hP _ _ ha
    obtain ⟨xs, hlen, hflat, hxs⟩ := ih
    refine ⟨x :: xs, by rw [List.length_cons, List.length_cons, hlen], ?_,
      List.forall_mem_cons.mpr ⟨hx, hxs⟩⟩
    rw [List.flatten_cons, List.flatMap_cons, hflat]

/-- **What a handler takes is laid out.** -/
theorem loadBlock_takes (type : BlockType) :
    Takes (loadBlock c h type) fun _ l => LaidOut h type l := by
  have hend {d : CaptureContents} : Takes (pure d : StreamReader CaptureContents)
      fun _ l => l = [] := Takes.pure rfl
  cases type with
  | kMemoryAlloc =>
    refine ((read_takes _).bind fun header => Takes.ite (fun _ => Takes.throw ()) fun hlim =>
      ((read_takes _).bind fun _ => hend).mono fun _ l hl =>
        (⟨not_lt.mp hlim, hl⟩ : leNat header 0 4 ≤ kMaxNumMemAlloc ∧ _)).mono ?_
    rintro c' l ⟨header, _, _, rfl, ⟨rfl, hheader⟩, hlim, all, _, _, rfl, ⟨rfl, hall⟩, rfl⟩
    refine ⟨.memoryAlloc header all, rfl, ⟨hheader, ?_⟩, hlim, by rw [List.append_nil]; rfl⟩
    rw [hall, Nat.mod_eq_of_lt]
    rw [kMaxNumMemAlloc] at hlim
    rw [sizeofMemoryAllocationData]
    omega
  | kSubmit =>
    refine ((read_takes _).bind fun header => ((read_takes _).times_parts _).bind fun _ =>
      hend).mono ?_
    rintro c' l ⟨header, _, _, rfl, ⟨rfl, hheader⟩, ibs, _, _, rfl,
      ⟨hlen, parts, rfl, hparts⟩, rfl⟩
    obtain ⟨ibs', hlen', hflat, hall⟩ := exists_flatMap id
      (fun a l (hl : a = l ∧ l.length = sizeofIndirectBufferData) => ⟨l, rfl, hl.2⟩) hparts
    refine ⟨.submit header ibs', rfl, ⟨hheader, hlen'.trans hlen, hall⟩, trivial, ?_⟩
    rw [List.append_nil, hflat]
    rfl
  | kMemoryRaw =>
    refine ((read_takes _).bind fun header => Takes.ite (fun _ => Takes.throw ()) fun hlim =>
      ((read_takes _).bind fun _ => hend).mono fun _ l hl =>
        (⟨not_lt.mp hlim, hl⟩ : leNat header 8 4 ≤ kMaxMemAllocSize ∧ _)).mono ?_
    rintro c' l ⟨header, _, _, rfl, ⟨rfl, hheader⟩, hlim, data, _, _, rfl, ⟨rfl, hdata⟩, rfl⟩
    exact ⟨.memoryRaw header data, rfl, ⟨hheader, hdata⟩, hlim, by rw [List.append_nil]; rfl⟩
  | kPresent =>
    refine ((read_takes _).bind fun _ => hend).mono ?_
    rintro c' l ⟨data, _, _, rfl, ⟨rfl, hdata⟩, rfl⟩
    exact ⟨.present data, rfl, hdata, trivial, List.append_nil _⟩
  | kWaveState =>
    refine ((read_takes _).bind fun header => Takes.ite (fun _ => Takes.throw ()) fun hlim =>
      ((loadWave_takes.times_parts _).bind fun _ => hend).mono fun _ l hl =>
        (⟨not_lt.mp hlim, hl⟩ : leNat header 0 4 ≤ kMaxNumWavesPerBlock ∧ _)).mono ?_
    rintro c' l ⟨header, _, _, rfl, ⟨rfl, hheader⟩, hlim, waves, _, _, rfl,
      ⟨hlen, parts, rfl, hparts⟩, rfl⟩
    obtain ⟨waves', hlen', hflat, hall⟩ :=
      exists_flatMap _ (fun w l hl => ⟨w, hl.1, hl.2⟩) hparts
    refine ⟨.waveState header waves', rfl,
      ⟨hheader, hlen'.trans hlen, fun w hw => (hall w hw).1⟩,
      ⟨hlim, fun w hw => (hall w hw).2⟩, ?_⟩
    rw [List.append_nil, hflat]
    rfl
  | kText =>
    refine ((read_takes _).bind fun header => Takes.ite (fun _ => Takes.throw ()) fun hlim =>
      (getline_takes.bind fun _ => (read_takes _).bind fun _ => hend).mono fun _ l hl =>
        (⟨by omega, hl⟩ : (leNat header 0 4 ≤ kMaxStrLen ∧ leNat header 8 8 ≤ kMaxMemAllocSize) ∧
          _)).mono ?_
    rintro c' l ⟨header, _, _, rfl, ⟨rfl, hheader⟩, hlim, name, _, _, rfl, ⟨rfl, hname⟩,
      data, _, _, rfl, ⟨rfl, hdata⟩, rfl⟩
    exact ⟨.text header name data, rfl, ⟨hheader, hname, hdata⟩, hlim,
      by rw [List.append_nil]; rfl⟩
  | kRegisters =>
    refine ((read_takes _).bind fun header => (loadRegister_takes.times_parts _).bind fun _ =>
      hend).mono ?_
    rintro c' l ⟨header, _, _, rfl, ⟨rfl, hheader⟩, regs, _, _, rfl,
      ⟨hlen, parts, rfl, hparts⟩, rfl⟩
    obtain ⟨regs', hlen', hflat, hall⟩ := exists_flatMap _ (fun _ _ hl => hl) hparts
    refine ⟨.registers header regs', rfl, ⟨hheader, hlen'.trans hlen, hall⟩, trivial, ?_⟩
    rw [List.append_nil, hflat]
    rfl
  | kVulkanMetadata =>
    exact hend.mono fun _ l hl => ⟨.vulkanMetadata [] [], rfl, ⟨rfl, rfl⟩, trivial, hl⟩

/-- **A handler takes exactly what is laid out.** -/
theorem exists_reads_iff {type : BlockType} {l : List UInt8} :
    (∃ c', (loadBlock c h type).Reads l c') ↔ LaidOut h type l := by
  constructor
  · rintro ⟨c', hreads⟩
    exact (loadBlock_takes type).whole hreads.whole
  · rintro ⟨p, htype, hp, hlim, rfl⟩
    obtain ⟨c', hreads, -⟩ := loadBlock_reads (c := c) hp htype hlim
    exact ⟨c', hreads⟩

end Handlers

end Dive.DiveCapture
