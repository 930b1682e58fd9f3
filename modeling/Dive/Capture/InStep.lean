import Dive.Capture.Format

/-!
# The blocks of a capture, one after the other

* `Block`, `Block.WellFormed`: a block with its header; `InStep`: each iteration takes one block.
* **`inStep_iff_keepsStep`**: the loop stays in step exactly when each payload up to one that is
  refused is taken whole.
* `Taken`: a block by the layout of its payload; `Declared`: a block by the size in its header.
* `EndsAtBoundary`, `CutShort`, `Misdeclares`, `GoesAstray`, `JumpsBack`: streams of blocks.
* **`framing_iff`**: both together, for well-formed captures and for every stream.
-/

namespace Dive.DiveCapture

open Machine Reader

/-! ## Well-formed captures -/

/-- A block: the bytes of its `BlockInfo`, and its payload. -/
structure Block where
  info : List UInt8
  payload : Payload

namespace Block

variable (b : Block)

def bytes : List UInt8 := b.info ++ b.payload.bytes

/-- The header names the type and the size of the payload, which is laid out as the format says. -/
structure WellFormed (h : CaptureDataHeader) : Prop where
  info : b.info.length = sizeofBlockInfo
  type : blockType? (leNat b.info 0 4) = b.payload.type?
  size : leNat b.info 8 8 = b.payload.bytes.length
  payload : b.payload.WellFormed h

end Block

/-- The bytes of some blocks. -/
def blockBytes (blocks : List Block) : List UInt8 := blocks.flatMap Block.bytes

/-- The texts of some blocks. -/
def blockTexts (blocks : List Block) : List TextInfo := blocks.filterMap (·.payload.text?)

/-- **Each iteration takes one block**: after some number of iterations the stream stands behind as
many blocks, and the texts that are loaded are those of these blocks. -/
def InStep (f : CaptureFile) (s : LoadState) (blocks : List Block) : Prop :=
  ∀ k t, runFor (iteration f) k s = .ok t → k ≤ blocks.length ∧ t.failed = false ∧
    t.offset = s.offset + (blockBytes (blocks.take k)).length ∧
    t.contents.texts = s.contents.texts ++ blockTexts (blocks.take k)

/-- **Each payload is taken whole**, up to one that is refused. -/
def KeepsStep : List Block → Prop
  | [] => True
  | b :: blocks => b.payload.WithinLimits → b.payload.TakenWhole ∧ KeepsStep blocks

section Loop

variable {f : CaptureFile} {s t : LoadState} {before after : List UInt8} {b : Block}

/-- The state of a loop that stands behind some bytes. -/
structure StandsBehind (s : LoadState) (before : List UInt8) : Prop where
  offset : s.offset = before.length
  failed : s.failed = false

theorem iteration_short (hs : StandsBehind s before) (hf : f.bytes = before ++ after)
    (hshort : after.length < sizeofBlockInfo) : iteration f s = .error .kSuccess := by
  rw [iteration, if_pos]
  rw [hs.offset, hf, List.length_append]
  omega

theorem iteration_block {info : List UInt8} (hs : StandsBehind s before)
    (hf : f.bytes = before ++ (info ++ after)) (hinfo : info.length = sizeofBlockInfo) :
    iteration f s = switchBlock f s info (before ++ info).length := by
  have hdrop : (f.bytes.drop s.offset).take sizeofBlockInfo = info := by
    rw [hf, hs.offset, List.drop_left, ← hinfo, List.take_left]
  have hoffset : s.offset + sizeofBlockInfo = (before ++ info).length := by
    rw [List.length_append, hs.offset, hinfo]
  rw [iteration, if_neg]
  · rw [hdrop, hoffset]
  · rw [hs.failed, hoffset, hf]
    simp

theorem seekg_of_lt {offset size : ℕ} (h : size < 2 ^ 63) :
    seekg offset size s = { s with offset := offset + size } := by
  have hpos : (0 : ℤ) ≤ (offset : ℤ) + (size : ℤ) := by omega
  simp only [seekg, if_pos h, if_pos hpos]
  congr 1

theorem seekg_of_le {offset size : ℕ} (h : 2 ^ 63 ≤ size) :
    (seekg offset size s).failed = true ∨ (seekg offset size s).offset ≠ offset + size := by
  have hneg : ¬ size < 2 ^ 63 := by omega
  simp only [seekg, if_neg hneg]
  by_cases hpos : (0 : ℤ) ≤ (offset : ℤ) + ((size : ℤ) - 2 ^ 64)
  · right
    rw [if_pos hpos]
    simp only
    omega
  · left
    rw [if_neg hpos]

theorem iteration_refuses (hs : StandsBehind s before) (hf : f.bytes = before ++ (b.bytes ++ after))
    (hb : b.WellFormed f.dataHeader) (hlim : ¬ b.payload.WithinLimits) :
    iteration f s = .error .kCorruptData := by
  rw [Block.bytes, List.append_assoc] at hf
  rw [iteration_block hs hf hb.info, switchBlock, hb.type]
  cases htype : b.payload.type? with
  | none =>
    cases hp : b.payload with
    | unknown data =>
      rw [hp] at hlim
      exact absurd trivial hlim
    | _ =>
      rw [hp] at htype
      cases htype
  | some type =>
    have hfails := loadBlock_fails (c := s.contents) hb.payload htype hlim (before ++ b.info) after
    rw [List.append_assoc, List.append_assoc, ← hf] at hfails
    simp only [hfails]

/-- **A block that is taken whole.** -/
theorem iteration_takes (hs : StandsBehind s before) (hf : f.bytes = before ++ (b.bytes ++ after))
    (hb : b.WellFormed f.dataHeader) (hlim : b.payload.WithinLimits)
    (hwhole : b.payload.TakenWhole) :
    ∃ t, iteration f s = .ok t ∧ StandsBehind t (before ++ b.bytes) ∧
      t.contents.texts = s.contents.texts ++ b.payload.text?.toList := by
  rw [Block.bytes, List.append_assoc] at hf
  rw [iteration_block hs hf hb.info, switchBlock, hb.type]
  have hlen : (before ++ b.bytes).length = (before ++ b.info).length + b.payload.bytes.length := by
    rw [Block.bytes, ← List.append_assoc, List.length_append]
  cases htype : b.payload.type? with
  | none =>
    cases hp : b.payload with
    | unknown data =>
      have hlater : f.dataHeader.laterCapture := by
        have := hb.payload
        rwa [hp] at this
      have hsize : data.length < 2 ^ 63 := by rwa [hp] at hwhole
      have hdata : leNat b.info 8 8 = data.length := by rw [hb.size, hp, Payload.bytes]
      rw [hp, Payload.bytes] at hlen
      simp only [hlater, if_true, hdata]
      exact ⟨_, rfl, ⟨by rw [seekg_of_lt hsize, hlen], by rw [seekg_of_lt hsize, hs.failed]⟩,
        by rw [seekg_of_lt hsize]; exact (List.append_nil _).symm⟩
    | _ =>
      rw [hp] at htype
      cases htype
  | some type =>
    obtain ⟨c', hreads, htexts⟩ := loadBlock_reads (c := s.contents) (hb.payload.framed hwhole)
      htype hlim
    have hcall := hreads (before ++ b.info) after
    rw [List.append_assoc, List.append_assoc, ← hf] at hcall
    simp only [hcall]
    exact ⟨_, rfl, ⟨hlen.symm, hs.failed⟩, htexts⟩

theorem iteration_loses (hs : StandsBehind s before) (hf : f.bytes = before ++ (b.bytes ++ after))
    (hb : b.WellFormed f.dataHeader) (hlim : b.payload.WithinLimits)
    (hwhole : ¬ b.payload.TakenWhole) :
    ∃ t, iteration f s = .ok t ∧ (t.failed = true ∨ t.offset ≠ s.offset + b.bytes.length) := by
  rw [Block.bytes, List.append_assoc] at hf
  rw [iteration_block hs hf hb.info, switchBlock, hb.type]
  have hlen : s.offset + b.bytes.length = (before ++ b.info).length + b.payload.bytes.length := by
    rw [Block.bytes, hs.offset, List.length_append, List.length_append, Nat.add_assoc]
  cases htype : b.payload.type? with
  | none =>
    cases hp : b.payload with
    | unknown data =>
      have hlater : f.dataHeader.laterCapture := by
        have := hb.payload
        rwa [hp] at this
      have hsize : 2 ^ 63 ≤ data.length := by
        rw [hp] at hwhole
        exact not_lt.mp hwhole
      have hdata : leNat b.info 8 8 = data.length := by rw [hb.size, hp, Payload.bytes]
      rw [hp, Payload.bytes] at hlen
      simp only [hlater, if_true, hdata, hlen]
      exact ⟨_, rfl, seekg_of_le hsize⟩
    | _ =>
      rw [hp] at htype
      cases htype
  | some type =>
    obtain ⟨l, l', c', hsplit, hne, hreads⟩ :=
      loadBlock_stopsShort (c := s.contents) hb.payload htype hlim hwhole
    have hcall := hreads (before ++ b.info) (l' ++ after)
    rw [List.append_assoc, List.append_assoc, ← List.append_assoc l, ← hsplit, ← hf] at hcall
    simp only [hcall]
    refine ⟨_, rfl, .inr ?_⟩
    have hpos := List.length_pos_iff.mpr hne
    have hsum := congrArg List.length hsplit
    rw [List.length_append] at hsum
    show (before ++ b.info).length + l.length ≠ _
    omega

end Loop

theorem blockBytes_cons (b : Block) (blocks : List Block) :
    blockBytes (b :: blocks) = b.bytes ++ blockBytes blocks := rfl

theorem blockTexts_cons (b : Block) (blocks : List Block) :
    blockTexts (b :: blocks) = b.payload.text?.toList ++ blockTexts blocks := by
  rw [blockTexts, List.filterMap_cons]
  cases b.payload.text? <;> rfl

/-- **Staying in step**, for the blocks behind some bytes. -/
theorem inStep_blocks_iff {f : CaptureFile} {blocks : List Block} {before : List UInt8}
    {s : LoadState} (hs : StandsBehind s before) (hf : f.bytes = before ++ blockBytes blocks)
    (hblocks : ∀ b ∈ blocks, b.WellFormed f.dataHeader) :
    InStep f s blocks ↔ KeepsStep blocks := by
  induction blocks generalizing before s with
  | nil =>
    have hend : iteration f s = .error .kSuccess :=
      iteration_short hs hf (by decide)
    refine ⟨fun _ => trivial, fun _ k t hk => ?_⟩
    cases k with
    | zero =>
      cases hk
      exact ⟨le_refl 0, hs.failed, rfl, (List.append_nil _).symm⟩
    | succ k =>
      rw [runFor, hend] at hk
      cases hk
  | cons b blocks ih =>
    have hb := hblocks b List.mem_cons_self
    rw [blockBytes_cons] at hf
    by_cases hlim : b.payload.WithinLimits
    · by_cases hwhole : b.payload.TakenWhole
      · obtain ⟨u, hu, hbehind, htexts⟩ := iteration_takes hs hf hb hlim hwhole
        rw [← List.append_assoc] at hf
        have hrest := ih hbehind hf fun c hc => hblocks c (List.mem_cons_of_mem b hc)
        have hoffset : u.offset = s.offset + b.bytes.length := by
          rw [hbehind.offset, hs.offset, List.length_append]
        rw [KeepsStep, ← hrest]
        constructor
        · refine fun h _ => ⟨hwhole, fun k t hk => ?_⟩
          obtain ⟨hle, hfailed, hto, htx⟩ := h (k + 1) t (by rw [runFor, hu]; exact hk)
          rw [List.take_succ_cons, blockBytes_cons, List.length_append] at hto
          rw [List.take_succ_cons, blockTexts_cons, ← List.append_assoc, ← htexts] at htx
          rw [List.length_cons] at hle
          exact ⟨by omega, hfailed, by omega, htx⟩
        · intro h k t hk
          cases k with
          | zero =>
            cases hk
            exact ⟨Nat.zero_le _, hs.failed, rfl, (List.append_nil _).symm⟩
          | succ k =>
            rw [runFor, hu] at hk
            obtain ⟨hle, hfailed, hto, htx⟩ := (h hlim).2 k t hk
            rw [List.take_succ_cons, blockBytes_cons, List.length_append, blockTexts_cons,
              ← List.append_assoc, ← htexts]
            rw [List.length_cons]
            exact ⟨by omega, hfailed, by omega, htx⟩
      · obtain ⟨u, hu, hlost⟩ := iteration_loses hs hf hb hlim hwhole
        refine ⟨fun h => ?_, fun h => absurd (h hlim).1 hwhole⟩
        obtain ⟨-, hfailed, hoffset, -⟩ := h 1 u (by rw [runFor, hu]; rfl)
        rcases hlost with hlost | hlost
        · rw [hfailed] at hlost
          cases hlost
        · refine absurd ?_ hlost
          simpa [blockBytes] using hoffset
    · have hend := iteration_refuses hs hf hb hlim
      refine ⟨fun _ h => absurd h hlim, fun _ k t hk => ?_⟩
      cases k with
      | zero =>
        cases hk
        exact ⟨Nat.zero_le _, hs.failed, rfl, (List.append_nil _).symm⟩
      | succ k =>
        rw [runFor, hend] at hk
        cases hk

/-! ## Any stream -/

/-- The payload behind a header, as it is taken: by its layout, or as one that is skipped over its
size. -/
def TakenBody (h : CaptureDataHeader) (info body : List UInt8) : Prop :=
  match blockType? (leNat info 0 4) with
  | some type => LaidOut h type body
  | none => h.laterCapture ∧ leNat info 8 8 = body.length ∧ body.length < 2 ^ 63

/-- **A block as the loader takes it.** -/
def Taken (h : CaptureDataHeader) (l : List UInt8) : Prop :=
  ∃ info body, l = info ++ body ∧ info.length = sizeofBlockInfo ∧ TakenBody h info body

/-- **A block as its header declares it**: as many bytes as `m_data_size` says. -/
def Declared (l : List UInt8) : Prop :=
  ∃ info body, l = info ++ body ∧ info.length = sizeofBlockInfo ∧ leNat info 8 8 = body.length

/-- A block of an unknown type is skipped over its size. -/
def Skips (h : CaptureDataHeader) (info : List UInt8) : Prop :=
  info.length = sizeofBlockInfo ∧ blockType? (leNat info 0 4) = none ∧ h.laterCapture

/-- An unknown block that is not all there. -/
def SkipsPastEnd (h : CaptureDataHeader) (tail : List UInt8) : Prop :=
  ∃ info body, tail = info ++ body ∧ Skips h info ∧ leNat info 8 8 < 2 ^ 63 ∧
    body.length < leNat info 8 8

/-- An unknown block with a size that is a negative offset. -/
def SkipsBack (h : CaptureDataHeader) (tail : List UInt8) : Prop :=
  ∃ info body, tail = info ++ body ∧ Skips h info ∧ 2 ^ 63 ≤ leNat info 8 8

/-- The bytes are blocks of a kind, with a `tail` behind them. -/
def BlocksThen (B P : List UInt8 → Prop) (l : List UInt8) : Prop :=
  ∃ (blocks : List (List UInt8)) (tail : List UInt8),
    l = blocks.flatten ++ tail ∧ (∀ b ∈ blocks, B b) ∧ P tail

/-- A last block that is not all there. -/
def Partial (h : CaptureDataHeader) (tail : List UInt8) : Prop :=
  tail ≠ [] ∧ (tail.length < sizeofBlockInfo ∨ SkipsPastEnd h tail)

/-- Blocks that are taken, up to the end or to a last block that is not all there. -/
def Accepted (h : CaptureDataHeader) : List UInt8 → Prop :=
  BlocksThen (Taken h) fun tail => tail = [] ∨ Partial h tail

/-- Blocks as they are declared, up to the end. -/
def Bounded : List UInt8 → Prop := BlocksThen Declared (· = [])

/-- A block that declares another size than its layout has. -/
def Missized (h : CaptureDataHeader) (tail : List UInt8) : Prop :=
  ∃ b rest, tail = b ++ rest ∧ Taken h b ∧ ¬ Declared b

/-- Such a block, from which the layouts lead to an end but the sizes do not. -/
def Astray (h : CaptureDataHeader) (tail : List UInt8) : Prop :=
  Missized h tail ∧ Accepted h tail ∧ ¬ Bounded tail

/-- Blocks that declare the sizes of their layouts. -/
def Sized (h : CaptureDataHeader) (l : List UInt8) : Prop := Taken h l ∧ Declared l

section Streams

variable {h : CaptureDataHeader} {B P : List UInt8 → Prop} {f : CaptureFile} {s t : LoadState}
  {before after l l' : List UInt8}

theorem BlocksThen.of_tail (hl : P l) : BlocksThen B P l := ⟨[], l, rfl, by simp, hl⟩

theorem BlocksThen.cons (hl : B l) (hl' : BlocksThen B P l') : BlocksThen B P (l ++ l') := by
  obtain ⟨blocks, tail, rfl, hblocks, htail⟩ := hl'
  exact ⟨l :: blocks, tail, by rw [List.flatten_cons, List.append_assoc],
    List.forall_mem_cons.mpr ⟨hl, hblocks⟩, htail⟩

theorem Taken.length_le (hl : Taken h l) : sizeofBlockInfo ≤ l.length := by
  obtain ⟨info, body, rfl, hinfo, -⟩ := hl
  rw [List.length_append]
  omega

theorem Declared.unique (hl : Declared l) (hl' : Declared l') (heq : l ++ before = l' ++ after) :
    l = l' := by
  obtain ⟨info, body, rfl, hinfo, hbody⟩ := hl
  obtain ⟨info', body', rfl, hinfo', hbody'⟩ := hl'
  rw [List.append_assoc, List.append_assoc] at heq
  obtain ⟨rfl, hrest⟩ := List.append_inj heq (hinfo.trans hinfo'.symm)
  rw [(List.append_inj hrest (hbody.symm.trans hbody')).1]

theorem Bounded.of_cons (hl : Declared l) (hboth : Bounded (l ++ l')) : Bounded l' := by
  obtain ⟨blocks, tail, heq, hblocks, rfl⟩ := hboth
  cases blocks with
  | nil =>
    obtain ⟨info, body, rfl, hinfo, -⟩ := hl
    have hlen := congrArg List.length heq
    simp only [List.length_append, hinfo, List.flatten_nil, List.length_nil, sizeofBlockInfo] at hlen
    omega
  | cons b blocks =>
    obtain ⟨hb, hrest⟩ := List.forall_mem_cons.mp hblocks
    rw [List.flatten_cons, List.append_assoc] at heq
    obtain rfl := hl.unique hb heq
    exact ⟨blocks, [], List.append_cancel_left heq, hrest, rfl⟩

theorem Partial.not_bounded (hl : Partial h l) : ¬ Bounded l := by
  rintro ⟨blocks, tail, rfl, hblocks, rfl⟩
  obtain ⟨hne, htail⟩ := hl
  cases blocks with
  | nil => exact hne rfl
  | cons b blocks =>
    obtain ⟨info, body, rfl, hinfo, hbody⟩ := (List.forall_mem_cons.mp hblocks).1
    rw [List.append_nil, List.flatten_cons, List.append_assoc] at htail
    rcases htail with hshort | ⟨info', body', heq, ⟨hinfo', -⟩, -, hpast⟩
    · rw [List.length_append] at hshort
      omega
    · obtain ⟨rfl, rfl⟩ := List.append_inj heq (hinfo.trans hinfo'.symm)
      rw [List.length_append] at hpast
      omega

theorem iteration_taken (hs : StandsBehind s before) (hf : f.bytes = before ++ (l ++ after))
    (hl : Taken f.dataHeader l) :
    ∃ t, iteration f s = .ok t ∧ StandsBehind t (before ++ l) := by
  obtain ⟨info, body, rfl, hinfo, hbody⟩ := hl
  have hlen : (before ++ (info ++ body)).length = (before ++ info).length + body.length := by
    rw [← List.append_assoc, List.length_append]
  rw [List.append_assoc] at hf
  rw [iteration_block hs hf hinfo, switchBlock]
  rw [TakenBody] at hbody
  cases htype : blockType? (leNat info 0 4) with
  | none =>
    rw [htype] at hbody
    obtain ⟨hlater, hsize, hlt⟩ := hbody
    simp only [hlater, if_true, hsize, seekg_of_lt hlt]
    exact ⟨_, rfl, ⟨hlen.symm, hs.failed⟩⟩
  | some type =>
    rw [htype] at hbody
    obtain ⟨d, hd⟩ := (exists_reads_iff (c := s.contents)).mpr hbody
    have hcall := hd (before ++ info) after
    rw [List.append_assoc, List.append_assoc, ← hf] at hcall
    simp only [hcall]
    exact ⟨_, rfl, ⟨hlen.symm, hs.failed⟩⟩

theorem iteration_pastEnd (hs : StandsBehind s before) (hf : f.bytes = before ++ l)
    (hl : SkipsPastEnd f.dataHeader l) :
    ∃ t, iteration f s = .ok t ∧ iteration f t = .error .kSuccess := by
  obtain ⟨info, body, rfl, ⟨hinfo, htype, hlater⟩, hsize, hshort⟩ := hl
  rw [iteration_block hs hf hinfo, switchBlock, htype]
  simp only [hlater, if_true, seekg_of_lt hsize]
  refine ⟨_, rfl, ?_⟩
  rw [iteration, if_pos]
  right
  rw [hf, List.length_append, List.length_append, List.length_append]
  simp only
  omega

/-- **What an iteration can do.** -/
theorem iteration_cases (hs : StandsBehind s before) (hf : f.bytes = before ++ l) :
    (l.length < sizeofBlockInfo ∧ iteration f s = .error .kSuccess) ∨
      iteration f s = .error .kCorruptData ∨
      (∃ b rest t, l = b ++ rest ∧ Taken f.dataHeader b ∧ iteration f s = .ok t ∧
        StandsBehind t (before ++ b)) ∨
      SkipsPastEnd f.dataHeader l ∨ SkipsBack f.dataHeader l := by
  by_cases hshort : l.length < sizeofBlockInfo
  · exact .inl ⟨hshort, iteration_short hs hf hshort⟩
  refine .inr ?_
  obtain ⟨info, body, rfl, hinfo⟩ : ∃ info body, l = info ++ body ∧
      info.length = sizeofBlockInfo :=
    ⟨l.take sizeofBlockInfo, l.drop sizeofBlockInfo, (List.take_append_drop _ l).symm,
      by rw [List.length_take]; omega⟩
  have hblock := iteration_block hs hf hinfo
  rw [switchBlock] at hblock
  cases htype : blockType? (leNat info 0 4) with
  | none =>
    rw [htype] at hblock
    by_cases hlater : f.dataHeader.laterCapture
    · have hskips : Skips f.dataHeader info := ⟨hinfo, htype, hlater⟩
      right
      by_cases hback : 2 ^ 63 ≤ leNat info 8 8
      · exact .inr (.inr ⟨info, body, rfl, hskips, hback⟩)
      by_cases hpast : body.length < leNat info 8 8
      · exact .inr (.inl ⟨info, body, rfl, hskips, by omega, hpast⟩)
      have htake : (body.take (leNat info 8 8)).length = leNat info 8 8 := by
        rw [List.length_take]
        omega
      have htaken : Taken f.dataHeader (info ++ body.take (leNat info 8 8)) := by
        refine ⟨info, _, rfl, hinfo, ?_⟩
        rw [TakenBody, htype]
        exact ⟨hlater, htake.symm, by omega⟩
      obtain ⟨t, ht, hbehind⟩ := @iteration_taken f s before (body.drop (leNat info 8 8)) _ hs
        (by rw [hf, List.append_assoc, List.take_append_drop]) htaken
      exact .inl ⟨_, _, t, by rw [List.append_assoc, List.take_append_drop], htaken, ht, hbehind⟩
    · left
      simpa [hlater] using hblock
  | some type =>
    rw [htype] at hblock
    simp only at hblock
    cases hcall : (loadBlock s.contents f.dataHeader type).call f.bytes (before ++ info).length with
    | error e =>
      left
      simp only [hcall] at hblock
      exact hblock
    | ok p =>
      obtain ⟨c', offset⟩ := p
      obtain ⟨b, hb, hoffset, -, hlaid⟩ := loadBlock_takes type _ _ _ _
        (by rw [hf]; simp) hcall
      have hbody : f.bytes.drop (before ++ info).length = body := by
        rw [hf, ← List.append_assoc, List.drop_left]
      rw [hbody] at hb
      have htaken : Taken f.dataHeader (info ++ b) := by
        refine ⟨info, b, rfl, hinfo, ?_⟩
        rw [TakenBody, htype]
        exact hlaid
      obtain ⟨t, ht, hbehind⟩ := @iteration_taken f s before (f.bytes.drop offset) _ hs
        (by rw [List.append_assoc, ← hb, hf]) htaken
      exact .inr (.inl ⟨_, _, t, by rw [List.append_assoc, ← hb], htaken, ht, hbehind⟩)

/-- **A load that succeeds** has come to the end of the blocks, or to a last block in part. -/
theorem accepted_of_succeeds (hs : StandsBehind s before) (hf : f.bytes = before ++ l)
    (hback : ¬ BlocksThen (Taken f.dataHeader) (SkipsBack f.dataHeader) l)
    (hstop : StopsWith (iteration f) s .kSuccess) : Accepted f.dataHeader l := by
  induction hn : l.length using Nat.strong_induction_on generalizing s before l with
  | _ n ih =>
    rcases iteration_cases hs hf with ⟨hshort, -⟩ | hbad | ⟨b, rest, t, rfl, hb, ht, hbehind⟩ |
      hpast | hskip
    · by_cases hl : l = []
      · exact .of_tail (.inl hl)
      · exact .of_tail (.inr ⟨hl, .inl hshort⟩)
    · cases hstop.eq_of_error hbad
    · have hlt : rest.length < n := by
        have := hb.length_le
        rw [List.length_append] at hn
        simp only [sizeofBlockInfo] at this
        omega
      rw [← List.append_assoc] at hf
      exact .cons hb (ih _ hlt hbehind hf (fun hc => hback (.cons hb hc)) (hstop.tail ht) rfl)
    · refine .of_tail (.inr ⟨?_, .inr hpast⟩)
      obtain ⟨info, body, rfl, ⟨hinfo, -⟩, -⟩ := hpast
      rintro hnil
      rw [(List.append_eq_nil_iff.mp hnil).1] at hinfo
      cases hinfo
    · exact absurd (.of_tail hskip) hback

/-- **Blocks up to the end, or to a last block in part, are loaded.** -/
theorem stopsWith_of_accepted (hs : StandsBehind s before) (hf : f.bytes = before ++ l)
    (hl : Accepted f.dataHeader l) : StopsWith (iteration f) s .kSuccess := by
  obtain ⟨blocks, tail, rfl, hblocks, htail⟩ := hl
  induction blocks generalizing s before with
  | nil =>
    rcases htail with rfl | ⟨-, hshort | hpast⟩
    · exact ⟨s, Reaches.refl s, iteration_short hs hf (by decide)⟩
    · exact ⟨s, Reaches.refl s, iteration_short hs hf hshort⟩
    · obtain ⟨t, ht, hend⟩ := iteration_pastEnd hs hf hpast
      exact StopsWith.head ht ⟨t, Reaches.refl t, hend⟩
  | cons b blocks ih =>
    obtain ⟨hb, hrest⟩ := List.forall_mem_cons.mp hblocks
    rw [List.flatten_cons, List.append_assoc] at hf
    obtain ⟨t, ht, hbehind⟩ := iteration_taken hs hf hb
    rw [← List.append_assoc] at hf
    exact StopsWith.head ht (ih hbehind hf hrest)

/-- **The layouts lead to a boundary of the declared sizes** unless, behind blocks for which both
are the same, a block is not all there or is one from which they go astray. -/
theorem bounded_of_accepted_iff : (Accepted h l → Bounded l) ↔
    ¬ BlocksThen (Sized h) (Partial h) l ∧ ¬ BlocksThen (Sized h) (Astray h) l := by
  constructor
  · intro himp
    have hwrong (P : List UInt8 → Prop) (hacc : ∀ tail, P tail → Accepted h tail)
        (hbad : ∀ tail, P tail → ¬ Bounded tail) : ¬ BlocksThen (Sized h) P l := by
      rintro ⟨blocks, tail, rfl, hblocks, htail⟩
      induction blocks with
      | nil => exact hbad tail htail (himp (hacc tail htail))
      | cons b blocks ih =>
        obtain ⟨hb, hrest⟩ := List.forall_mem_cons.mp hblocks
        rw [List.flatten_cons, List.append_assoc] at himp
        exact ih (fun hl => Bounded.of_cons hb.2 (himp (.cons hb.1 hl))) hrest
    exact ⟨hwrong _ (fun _ htail => .of_tail (.inr htail)) fun _ htail => htail.not_bounded,
      hwrong _ (fun _ htail => htail.2.1) fun _ htail => htail.2.2⟩
  · rintro ⟨hcut, hastray⟩ ⟨blocks, tail, rfl, hblocks, htail⟩
    induction blocks with
    | nil =>
      rcases htail with rfl | htail
      · exact .of_tail rfl
      · exact absurd (.of_tail htail) hcut
    | cons b blocks ih =>
      obtain ⟨hb, hrest⟩ := List.forall_mem_cons.mp hblocks
      have hacc : Accepted h ((b :: blocks).flatten ++ tail) :=
        ⟨b :: blocks, tail, rfl, hblocks, htail⟩
      rw [List.flatten_cons, List.append_assoc] at hcut hastray hacc ⊢
      by_cases hdecl : Declared b
      · exact .cons hdecl (ih (fun hc => hcut (.cons ⟨hb, hdecl⟩ hc))
          (fun hc => hastray (.cons ⟨hb, hdecl⟩ hc)) hrest)
      · by_contra hbounded
        exact hastray (.of_tail ⟨⟨b, _, rfl, hb, hdecl⟩, hacc, hbounded⟩)

end Streams

/-! ## Whole streams -/

/-- The stream begins as a `.dive` file. -/
def ValidFile (bytes : List UInt8) : Prop :=
  sizeofFileHeader ≤ bytes.length ∧ leNat (bytes.take sizeofFileHeader) 0 4 = kDiveFileId ∧
    leNat (bytes.take sizeofFileHeader) 4 4 = kDiveFileVersion

/-- The file has a capture of a version that is supported. -/
structure ValidCapture (bytes : List UInt8) : Prop where
  file : ValidFile bytes
  block : dataOffset ≤ bytes.length
  type : leNat ((bytes.drop sizeofFileHeader).take sizeofBlockInfo) 0 4 = kCapture
  compatible : (dataHeaderOf bytes).incompatible = false

/-- **The stream ends at a block boundary**: behind the file header, or behind blocks of the sizes
that their headers declare. -/
def EndsAtBoundary (bytes : List UInt8) : Prop :=
  bytes.length = sizeofFileHeader ∨
    blocksOffset ≤ bytes.length ∧ Bounded (bytes.drop blocksOffset)

/-- **The stream is cut short**: in the header of the capture block, in the header of the capture
data, or behind blocks that declare the sizes of their layouts: in the header of a block, or in a
block that is skipped. -/
def CutShort (bytes : List UInt8) : Prop :=
  ValidFile bytes ∧ (sizeofFileHeader < bytes.length ∧ bytes.length < dataOffset ∨
    ValidCapture bytes ∧ (bytes.length < blocksOffset ∨
      BlocksThen (Sized (dataHeaderOf bytes)) (Partial (dataHeaderOf bytes))
        (bytes.drop blocksOffset)))

/-- **A block declares another size than its layout has.** -/
def Misdeclares (bytes : List UInt8) : Prop :=
  ValidCapture bytes ∧ BlocksThen (Sized (dataHeaderOf bytes)) (Missized (dataHeaderOf bytes))
    (bytes.drop blocksOffset)

/-- From the block that does, the layouts lead to an end but the sizes do not. -/
def GoesAstray (bytes : List UInt8) : Prop :=
  ValidCapture bytes ∧ BlocksThen (Sized (dataHeaderOf bytes)) (Astray (dataHeaderOf bytes))
    (bytes.drop blocksOffset)

/-- A block that is skipped has a size of `2 ^ 63` or more: the loader goes back. -/
def JumpsBack (bytes : List UInt8) : Prop :=
  ValidCapture bytes ∧ BlocksThen (Taken (dataHeaderOf bytes)) (SkipsBack (dataHeaderOf bytes))
    (bytes.drop blocksOffset)

section Whole

variable {bytes : List UInt8}

theorem load_of_valid (h : ValidCapture bytes) : ∃ s, loadCaptureFileStream bytes =
    .ok (⟨bytes, dataHeaderOf bytes⟩, s) ∧ s.contents = {} ∧
      (bytes.length < blocksOffset → s.failed = true) ∧
      (blocksOffset ≤ bytes.length → StandsBehind s (bytes.take blocksOffset)) := by
  obtain ⟨⟨hlen, hid, hversion⟩, hblock, htype, hcomp⟩ := h
  have hextracted : (extracted bytes).length =
      min sizeofCaptureDataHeader (bytes.length - dataOffset) := by
    rw [extracted, List.length_take, List.length_drop]
  refine ⟨{ offset := dataOffset + (extracted bytes).length
            failed := (extracted bytes).length < sizeofCaptureDataHeader },
    ?_, rfl, fun hshort => ?_, fun hlong => ⟨?_, ?_⟩⟩
  · rw [loadCaptureFileStream, if_neg (not_lt.mpr hlen), if_neg (not_not.mpr hid),
      if_neg (not_not.mpr hversion), if_neg (not_lt.mpr hblock), if_neg (not_not.mpr htype),
      if_neg (by rw [Bool.not_eq_true]; exact hcomp)]
  · rw [blocksOffset] at hshort
    rw [decide_eq_true_iff]
    omega
  · rw [List.length_take, min_eq_left hlong]
    rw [blocksOffset] at hlong ⊢
    simp only
    omega
  · rw [blocksOffset] at hlong
    rw [decide_eq_false_iff_not]
    omega

theorem valid_of_succeeds (h : Returns bytes .kSuccess) :
    ValidFile bytes ∧ (bytes.length < dataOffset ∨ ValidCapture bytes) := by
  rw [Returns, loadCaptureFileStream] at h
  by_cases hlen : bytes.length < sizeofFileHeader
  · rw [if_pos hlen] at h
    cases h
  rw [if_neg hlen] at h
  by_cases hid : leNat (bytes.take sizeofFileHeader) 0 4 = kDiveFileId
  swap
  · rw [if_pos hid] at h
    cases h
  rw [if_neg (not_not.mpr hid)] at h
  by_cases hversion : leNat (bytes.take sizeofFileHeader) 4 4 = kDiveFileVersion
  swap
  · rw [if_pos hversion] at h
    cases h
  rw [if_neg (not_not.mpr hversion)] at h
  have hfile : ValidFile bytes := ⟨not_lt.mp hlen, hid, hversion⟩
  refine ⟨hfile, ?_⟩
  by_cases hblock : bytes.length < dataOffset
  · exact .inl hblock
  right
  rw [if_neg hblock] at h
  by_cases htype : leNat ((bytes.drop sizeofFileHeader).take sizeofBlockInfo) 0 4 = kCapture
  swap
  · rw [if_pos htype] at h
    cases h
  rw [if_neg (not_not.mpr htype)] at h
  refine ⟨hfile, not_lt.mp hblock, htype, ?_⟩
  by_contra hcomp
  rw [Bool.not_eq_false] at hcomp
  rw [if_pos hcomp] at h
  cases h

theorem returns_iff_stopsWith {s : LoadState} {r : LoadResult}
    (hs : loadCaptureFileStream bytes = .ok (⟨bytes, dataHeaderOf bytes⟩, s)) :
    Returns bytes r ↔ StopsWith (iteration ⟨bytes, dataHeaderOf bytes⟩) s r := by
  rw [Returns, hs]

theorem succeeds_iff_accepted (hvalid : ValidCapture bytes) (hle : blocksOffset ≤ bytes.length)
    (hback : ¬ JumpsBack bytes) :
    Returns bytes .kSuccess ↔ Accepted (dataHeaderOf bytes) (bytes.drop blocksOffset) := by
  obtain ⟨s, hs, -, -, hbehind⟩ := load_of_valid hvalid
  have hf := (List.take_append_drop blocksOffset bytes).symm
  rw [returns_iff_stopsWith hs]
  exact ⟨accepted_of_succeeds (f := ⟨bytes, dataHeaderOf bytes⟩) (hbehind hle) hf
    fun hc => hback ⟨hvalid, hc⟩,
    stopsWith_of_accepted (f := ⟨bytes, dataHeaderOf bytes⟩) (hbehind hle) hf⟩

theorem succeeds_of_short (hfile : ValidFile bytes)
    (hshort : bytes.length < dataOffset ∨ ValidCapture bytes ∧ bytes.length < blocksOffset) :
    Returns bytes .kSuccess := by
  rcases hshort with hshort | ⟨hvalid, hshort⟩
  · rw [Returns, loadCaptureFileStream, if_neg (not_lt.mpr hfile.1),
      if_neg (not_not.mpr hfile.2.1), if_neg (not_not.mpr hfile.2.2), if_pos hshort]
  · obtain ⟨s, hs, -, hfailed, -⟩ := load_of_valid hvalid
    have hend : iteration ⟨bytes, dataHeaderOf bytes⟩ s = .error .kSuccess := by
      rw [iteration, if_pos (.inl (hfailed hshort))]
    exact (returns_iff_stopsWith hs).mpr ⟨s, Reaches.refl s, hend⟩

theorem BlocksThen.ne_nil {B P : List UInt8 → Prop} {l : List UInt8} (h : BlocksThen B P l)
    (hP : ∀ tail, P tail → tail ≠ []) : l ≠ [] := by
  obtain ⟨blocks, tail, rfl, -, htail⟩ := h
  exact fun hnil => hP tail htail (List.append_eq_nil_iff.mp hnil).2

theorem Missized.ne_nil {h : CaptureDataHeader} {tail : List UInt8} (ht : Missized h tail) :
    tail ≠ [] := by
  obtain ⟨b, rest, rfl, hb, -⟩ := ht
  have hlen := hb.length_le
  rintro hnil
  rw [(List.append_eq_nil_iff.mp hnil).1] at hlen
  exact absurd hlen (by decide)

/-- **Success at a block boundary only**, unless the stream is cut short or goes astray. -/
theorem ends_iff (hback : ¬ JumpsBack bytes) :
    (Returns bytes .kSuccess → EndsAtBoundary bytes) ↔ ¬ CutShort bytes ∧ ¬ GoesAstray bytes := by
  by_cases hlong : ValidCapture bytes ∧ blocksOffset ≤ bytes.length
  · obtain ⟨hvalid, hle⟩ := hlong
    have hboundary : EndsAtBoundary bytes ↔ Bounded (bytes.drop blocksOffset) := by
      refine ⟨fun hend => ?_, fun hend => .inr ⟨hle, hend⟩⟩
      rcases hend with heq | ⟨-, hend⟩
      · rw [blocksOffset, dataOffset] at hle
        simp only [sizeofFileHeader, sizeofBlockInfo, sizeofCaptureDataHeader] at hle heq
        omega
      · exact hend
    have hcut : CutShort bytes ↔ BlocksThen (Sized (dataHeaderOf bytes))
        (Partial (dataHeaderOf bytes)) (bytes.drop blocksOffset) := by
      have hdata := hvalid.block
      refine ⟨?_, fun hcut => ⟨hvalid.file, .inr ⟨hvalid, .inr hcut⟩⟩⟩
      rintro ⟨-, ⟨-, hshort⟩ | ⟨-, hshort | hcut⟩⟩
      · omega
      · omega
      · exact hcut
    have hastray : GoesAstray bytes ↔ BlocksThen (Sized (dataHeaderOf bytes))
        (Astray (dataHeaderOf bytes)) (bytes.drop blocksOffset) := and_iff_right hvalid
    rw [succeeds_iff_accepted hvalid hle hback, hboundary, hcut, hastray]
    exact bounded_of_accepted_iff
  · have hnil (hvalid : ValidCapture bytes) : bytes.drop blocksOffset = [] :=
      List.drop_eq_nil_of_le (not_le.mp fun hle => hlong ⟨hvalid, hle⟩).le
    have hastray : ¬ GoesAstray bytes := fun ⟨hvalid, hc⟩ =>
      hc.ne_nil (fun _ ht => ht.1.ne_nil) (hnil hvalid)
    rw [and_iff_left hastray]
    constructor
    · rintro h ⟨hfile, hcut⟩
      have hshort : sizeofFileHeader < bytes.length ∧ (bytes.length < dataOffset ∨
          ValidCapture bytes ∧ bytes.length < blocksOffset) := by
        rcases hcut with ⟨hgt, hshort⟩ | ⟨hvalid, -⟩
        · exact ⟨hgt, .inl hshort⟩
        · have hdata := hvalid.block
          rw [dataOffset, sizeofBlockInfo] at hdata
          exact ⟨by omega, .inr ⟨hvalid, not_le.mp fun hle => hlong ⟨hvalid, hle⟩⟩⟩
      rcases h (succeeds_of_short hfile hshort.2) with heq | ⟨hle, -⟩
      · omega
      · rcases hshort.2 with hlt | ⟨-, hlt⟩
        · rw [blocksOffset] at hle
          omega
        · omega
    · intro hcut hreturns
      obtain ⟨hfile, hvalid⟩ := valid_of_succeeds hreturns
      rcases hvalid with hshort | hvalid
      · refine .inl (le_antisymm ?_ hfile.1)
        by_contra hgt
        exact hcut ⟨hfile, .inl ⟨not_le.mp hgt, hshort⟩⟩
      · exact absurd ⟨hfile, .inr ⟨hvalid, .inl (not_le.mp fun hle => hlong ⟨hvalid, hle⟩)⟩⟩ hcut

end Whole

/-- A capture of well-formed blocks. -/
structure WellFormedCapture (bytes : List UInt8) (blocks : List Block) : Prop where
  valid : ValidCapture bytes
  complete : blocksOffset ≤ bytes.length
  content : bytes.drop blocksOffset = blockBytes blocks
  wellFormed : ∀ b ∈ blocks, b.WellFormed (dataHeaderOf bytes)

/-- The loop of `LoadCapture` takes one block of the stream in each iteration. -/
def LoadsInStep (bytes : List UInt8) (blocks : List Block) : Prop :=
  ∃ f s, loadCaptureFileStream bytes = .ok (f, s) ∧ s.contents = {} ∧ InStep f s blocks

theorem loadsInStep_iff {bytes : List UInt8} {blocks : List Block}
    (h : WellFormedCapture bytes blocks) : LoadsInStep bytes blocks ↔ KeepsStep blocks := by
  obtain ⟨s, hs, hcontents, -, hbehind⟩ := load_of_valid h.valid
  have hiff := @inStep_blocks_iff ⟨bytes, dataHeaderOf bytes⟩ blocks _ s (hbehind h.complete)
    (by rw [← h.content]; exact (List.take_append_drop blocksOffset bytes).symm) h.wellFormed
  rw [← hiff]
  constructor
  · rintro ⟨f, s', hs', -, hstep⟩
    rw [hs] at hs'
    cases hs'
    exact hstep
  · exact fun hstep => ⟨_, s, hs, hcontents, hstep⟩

theorem GoesAstray.misdeclares {bytes : List UInt8} (h : GoesAstray bytes) : Misdeclares bytes := by
  obtain ⟨hvalid, blocks, tail, heq, hblocks, htail⟩ := h
  exact ⟨hvalid, blocks, tail, heq, hblocks, htail.1⟩

/-- **The framing of `.dive` files.** A well-formed capture is loaded block by block, with its
texts, exactly when each payload up to one that is refused is taken whole. Unless the loader goes
back, and where blocks declare the sizes of their layouts, a load succeeds at block boundaries only
exactly when the stream is not cut short; where a block does not, also exactly when it does not go
astray. -/
theorem framing_iff (bytes : List UInt8) :
    (∀ blocks, WellFormedCapture bytes blocks →
      (LoadsInStep bytes blocks ↔ KeepsStep blocks)) ∧
    (¬ JumpsBack bytes →
      (¬ Misdeclares bytes →
        ((Returns bytes .kSuccess → EndsAtBoundary bytes) ↔ ¬ CutShort bytes)) ∧
      ((Returns bytes .kSuccess → EndsAtBoundary bytes) ↔
        ¬ CutShort bytes ∧ ¬ GoesAstray bytes)) := by
  refine ⟨fun _ h => loadsInStep_iff h, fun hback => ⟨fun hsizes => ?_, ends_iff hback⟩⟩
  have hstays : ¬ GoesAstray bytes := fun h => hsizes h.misdeclares
  rw [ends_iff hback, and_iff_left hstays]

/-- The headers of a file, and what is behind them. -/
def fileWith (blocks : List UInt8) : List UInt8 :=
  [0x44, 0x49, 0x56, 0x45, 1, 0, 0, 0] ++ ([0x43, 0x41, 0x50, 0x54] ++ List.replicate 12 0) ++
    CaptureDataHeader.initial ++ blocks

theorem dataHeaderOf_fileWith (l : List UInt8) :
    dataHeaderOf (fileWith l) = CaptureDataHeader.initial := rfl

theorem drop_fileWith (l : List UInt8) : (fileWith l).drop blocksOffset = l := rfl

theorem length_fileWith (l : List UInt8) : (fileWith l).length = blocksOffset + l.length := by
  have hclosed : (fileWith []).length = blocksOffset := by decide
  rw [← hclosed]
  simp only [fileWith, List.length_append, List.length_nil, Nat.add_zero]

theorem take_fileWith (l : List UInt8) :
    (fileWith l).take sizeofFileHeader = [0x44, 0x49, 0x56, 0x45, 1, 0, 0, 0] := rfl

theorem blockInfo_fileWith (l : List UInt8) :
    ((fileWith l).drop sizeofFileHeader).take sizeofBlockInfo =
      [0x43, 0x41, 0x50, 0x54] ++ List.replicate 12 0 := rfl

theorem valid_fileWith (l : List UInt8) : ValidCapture (fileWith l) := by
  have hlen := length_fileWith l
  rw [blocksOffset, dataOffset] at hlen
  refine ⟨⟨by omega, ?_, ?_⟩, by rw [dataOffset]; omega, ?_, ?_⟩
  · rw [take_fileWith]
    decide
  · rw [take_fileWith]
    decide
  · rw [blockInfo_fileWith]
    decide
  · rw [dataHeaderOf_fileWith]
    decide

/-- A text block with the name `A` and the contents `B`. -/
def textBlock : Block where
  info := [0x54, 0x45, 0x58, 0x54, 0, 0, 0, 0, 27, 0, 0, 0, 0, 0, 0, 0]
  payload := .text ([2, 0, 0, 0, 0, 0, 0, 0, 1] ++ List.replicate 15 0) [65] [66]

theorem framing_iff_textBlock : LoadsInStep (fileWith textBlock.bytes) [textBlock] ∧
    (Returns (fileWith []) .kSuccess → EndsAtBoundary (fileWith [])) := by
  constructor
  · refine ((framing_iff _).1 _ ⟨valid_fileWith _, by decide, by decide, ?_⟩).mpr ?_
    · rw [dataHeaderOf_fileWith]
      rintro b hb
      obtain rfl := List.mem_singleton.mp hb
      exact ⟨by decide, by decide, by decide, by decide, by decide, by decide⟩
    · exact fun _ => ⟨show (0 : UInt8) ∉ [65] by decide, trivial⟩
  · have hnil : (fileWith []).drop blocksOffset = [] := drop_fileWith []
    refine (((framing_iff _).2 ?_).1 ?_).mpr ?_
    · rintro ⟨-, hback⟩
      refine hback.ne_nil (fun tail htail => ?_) hnil
      obtain ⟨info, body, rfl, ⟨hinfo, -⟩, -⟩ := htail
      rintro heq
      rw [(List.append_eq_nil_iff.mp heq).1] at hinfo
      cases hinfo
    · exact fun ⟨_, hsizes⟩ => hsizes.ne_nil (fun _ htail => htail.ne_nil) hnil
    · rintro ⟨-, ⟨-, hshort⟩ | ⟨-, hshort | hcut⟩⟩
      · exact absurd hshort (by decide)
      · exact absurd hshort (by decide)
      · exact hcut.ne_nil (fun _ htail => htail.1) hnil

/-- Vulkan metadata without entries. -/
def metadataBlock : Block where
  info := [0x56, 0x55, 0x4C, 0x4B, 0, 0, 0, 0, 16, 0, 0, 0, 0, 0, 0, 0]
  payload := .vulkanMetadata (List.replicate 16 0) []

/-- A present block that declares 1000 bytes, with the 32 that its handler reads. -/
def presentBytes : List UInt8 :=
  [0x50, 0x52, 0x53, 0x54, 0, 0, 0, 0, 0xe8, 3, 0, 0, 0, 0, 0, 0] ++ List.replicate 32 0

theorem accepted_presentBytes : Accepted .initial presentBytes := by
  have htaken : Taken .initial presentBytes := by
    refine ⟨presentBytes.take 16, List.replicate 32 0, by decide, by decide, ?_⟩
    show LaidOut .initial .kPresent (List.replicate 32 0)
    exact ⟨.present (List.replicate 32 0), rfl, List.length_replicate, trivial, rfl⟩
  have hcons := BlocksThen.cons htaken (.of_tail (P := fun tail => tail = [] ∨
    Partial .initial tail) (.inl rfl))
  rwa [List.append_nil] at hcons

theorem not_bounded_presentBytes : ¬ Bounded presentBytes := by
  rintro ⟨blocks, tail, heq, hblocks, rfl⟩
  rw [List.append_nil] at heq
  cases blocks with
  | nil => cases heq
  | cons b blocks =>
    obtain ⟨info, body, rfl, hinfo, hbody⟩ := (List.forall_mem_cons.mp hblocks).1
    rw [List.flatten_cons, List.append_assoc] at heq
    obtain ⟨rfl, hrest⟩ := List.append_inj heq hinfo.symm
    have hlen := congrArg List.length hrest
    have hsize : 1000 = body.length := hbody
    rw [List.length_append, List.length_replicate] at hlen
    omega

/-- The payload of metadata is read as the next header; a file that ends in its fifth header byte is
loaded, and so is one that ends inside a block as it is declared. -/
theorem metadataBlock_not_inStep :
    WellFormedCapture (fileWith metadataBlock.bytes) [metadataBlock] ∧
      ¬ LoadsInStep (fileWith metadataBlock.bytes) [metadataBlock] ∧
      Returns (fileWith [0x54, 0x45, 0x58, 0x54, 0]) .kSuccess ∧
      ¬ EndsAtBoundary (fileWith [0x54, 0x45, 0x58, 0x54, 0]) ∧
      Returns (fileWith presentBytes) .kSuccess ∧ ¬ EndsAtBoundary (fileWith presentBytes) := by
  have hwf : WellFormedCapture (fileWith metadataBlock.bytes) [metadataBlock] := by
    refine ⟨valid_fileWith _, by decide, by decide, ?_⟩
    rw [dataHeaderOf_fileWith]
    rintro b hb
    obtain rfl := List.mem_singleton.mp hb
    exact ⟨by decide, by decide, by decide, by decide, by decide, by simp⟩
  have hpart : Partial .initial [0x54, 0x45, 0x58, 0x54, 0] := ⟨by decide, .inl (by decide)⟩
  have hreturns (l : List UInt8) (hl : Accepted .initial l) : Returns (fileWith l) .kSuccess := by
    obtain ⟨s, hs, -, -, hbehind⟩ := load_of_valid (valid_fileWith l)
    have hle : blocksOffset ≤ (fileWith l).length := by rw [length_fileWith]; omega
    exact (returns_iff_stopsWith hs).mpr (stopsWith_of_accepted (hbehind hle)
      (List.take_append_drop blocksOffset _).symm hl)
  have hends (l : List UInt8) (hl : ¬ Bounded l) : ¬ EndsAtBoundary (fileWith l) := by
    rintro (hlen | ⟨-, hend⟩)
    · rw [length_fileWith, blocksOffset, dataOffset, sizeofBlockInfo] at hlen
      omega
    · exact hl hend
  exact ⟨hwf, fun h => ((loadsInStep_iff hwf).mp h trivial).1,
    hreturns _ (.of_tail (.inr hpart)), hends _ hpart.not_bounded,
    hreturns _ accepted_presentBytes, hends _ not_bounded_presentBytes⟩

end Dive.DiveCapture
