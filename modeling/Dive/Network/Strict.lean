import Dive.Network.RoundTrip

/-!
# Strict decoding

* `Cell`: a byte of a payload, or the byte of a boolean field; `cells`: the layout of a message;
  `serialize_eq_cells`: what is written for it.
* `takes_…`: what the readers of the fields and records take stands for the layout of what they
  yield.
* `Reencodes`: serializing a message gives back a payload, up to its booleans.
* **`strictlyDecoded_iff`**: whatever is decoded is reencoded, unless it is a payload of a message
  without a body.
-/

namespace Dive.Network

open Reader

/-! ## The layout of the messages -/

/-- A byte of a payload. Any byte but zero stands for true in a boolean field. -/
inductive Cell
  | byte (b : UInt8)
  | bool (v : Bool)

/-- The byte that is written. -/
def Cell.written : Cell → UInt8
  | .byte b => b
  | .bool v => v.toUInt8

/-- A byte stands for the cell. -/
def Cell.Stands : Cell → UInt8 → Prop
  | .byte b, x => x = b
  | .bool v, x => (x != 0) = v

def exactly (l : List UInt8) : List Cell := l.map .byte

def uint32Cells (w : UInt32) : List Cell := exactly (netBytes w)

def uint64Cells (v : UInt64) : List Cell := exactly (uint64Bytes v)

def stringCells (str : List UInt8) : List Cell := exactly (stringBytes str)

def boolCells (b : Bool) : List Cell := [.bool b]

def HandshakeMessage.cells (m : HandshakeMessage) : List Cell :=
  uint32Cells m.majorVersion ++ uint32Cells m.minorVersion

def RemoveFileResponse.cells (m : RemoveFileResponse) : List Cell :=
  stringCells m.errorReason ++ boolCells m.success

def DownloadFileResponse.cells (m : DownloadFileResponse) : List Cell :=
  boolCells m.found ++ stringCells m.errorReason ++ stringCells m.filePath ++
    uint64Cells m.fileSize

def FileSizeResponse.cells (m : FileSizeResponse) : List Cell :=
  boolCells m.found ++ stringCells m.errorReason ++ uint64Cells m.fileSize

def DrawcallFilterConfigRequest.cells (m : DrawcallFilterConfigRequest) : List Cell :=
  stringCells m.targetRenderPassName ++ uint32Cells m.vertexCount ++ uint32Cells m.indexCount ++
    uint32Cells m.instanceCount ++ uint32Cells m.maxDrawcalls ++ boolCells m.filterByVertexCount ++
    boolCells m.filterByIndexCount ++ boolCells m.filterByInstanceCount ++
    boolCells m.enableDrawcallLimit ++ boolCells m.filterByAlphaBlended ++
    boolCells m.filterByRenderPass

def PSOInfo.cells (pso : PSOInfo) : List Cell :=
  stringCells pso.name ++ uint64Cells pso.pipelineHandle ++ boolCells pso.hasAlphaBlend

def RenderPassInfo.cells (rp : RenderPassInfo) : List Cell :=
  stringCells rp.name ++ uint64Cells rp.renderPassHandle

/-- The payload of a message, cell by cell. -/
def Message.cells : Message → List Cell
  | handshakeRequest m => m.cells
  | handshakeResponse m => m.cells
  | pingMessage => []
  | pongMessage => []
  | pm4CaptureRequest => []
  | pm4CaptureResponse str => stringCells str
  | downloadFileRequest str => stringCells str
  | downloadFileResponse m => m.cells
  | fileSizeRequest str => stringCells str
  | fileSizeResponse m => m.cells
  | removeFileRequest str => stringCells str
  | removeFileResponse m => m.cells
  | drawcallFilterConfigRequest m => m.cells
  | drawcallFilterConfigResponse => []
  | livePSOsRequest => []
  | livePSOsResponse psos =>
    uint32Cells (UInt32.ofNat psos.length) ++ psos.flatMap PSOInfo.cells
  | liveRenderPassesRequest => []
  | liveRenderPassesResponse rps =>
    uint32Cells (UInt32.ofNat rps.length) ++ rps.flatMap RenderPassInfo.cells
  | disableTimestampRequest disable => boolCells disable
  | disableTimestampResponse => []

@[simp] theorem map_written_exactly (l : List UInt8) : (exactly l).map Cell.written = l := by
  simp [exactly, Function.comp_def, Cell.written]

@[simp] theorem map_written_uint32Cells (w : UInt32) :
    (uint32Cells w).map Cell.written = netBytes w := map_written_exactly _

@[simp] theorem map_written_uint64Cells (v : UInt64) :
    (uint64Cells v).map Cell.written = uint64Bytes v := map_written_exactly _

@[simp] theorem map_written_stringCells (str : List UInt8) :
    (stringCells str).map Cell.written = stringBytes str := map_written_exactly _

@[simp] theorem map_written_boolCells (b : Bool) :
    (boolCells b).map Cell.written = [b.toUInt8] := rfl

/-- **The payload that is written** has the layout of the message. -/
theorem Message.serialize_eq_cells (m : Message) : m.serialize = m.cells.map Cell.written := by
  have hpsos : ∀ dest pso, LivePSOsResponse.writePSO dest pso = dest ++ psoBytes pso := by
    intro dest pso
    simp [LivePSOsResponse.writePSO, psoBytes]
  have hpso : ∀ pso : PSOInfo, pso.cells.map Cell.written = psoBytes pso := by
    intro pso
    simp [PSOInfo.cells, psoBytes]
  have hrps : ∀ dest rp,
      LiveRenderPassesResponse.writeRenderPass dest rp = dest ++ renderPassBytes rp := by
    intro dest rp
    simp [LiveRenderPassesResponse.writeRenderPass, renderPassBytes]
  have hrp : ∀ rp : RenderPassInfo, rp.cells.map Cell.written = renderPassBytes rp := by
    intro rp
    simp [RenderPassInfo.cells, renderPassBytes]
  cases m with
  | livePSOsResponse psos =>
    simp only [serialize, LivePSOsResponse.serialize, cells, foldl_write hpsos, List.map_append,
      List.map_flatMap, hpso, map_written_uint32Cells, writeUint32ToBuffer_eq, List.nil_append]
  | liveRenderPassesResponse rps =>
    simp only [serialize, LiveRenderPassesResponse.serialize, cells, foldl_write hrps,
      List.map_append, List.map_flatMap, hrp, map_written_uint32Cells, writeUint32ToBuffer_eq,
      List.nil_append]
  | _ =>
    simp [serialize, cells, HandshakeMessage.serialize, HandshakeMessage.cells,
      StringMessage.serialize, RemoveFileResponse.serialize, RemoveFileResponse.cells,
      DownloadFileResponse.serialize, DownloadFileResponse.cells, FileSizeResponse.serialize,
      FileSizeResponse.cells, DrawcallFilterConfigRequest.serialize,
      DrawcallFilterConfigRequest.cells, DisableTimestampRequest.serialize]

/-! ## What the readers take -/

/-- The bytes that the reader takes stand for the layout of what it yields. -/
abbrev TakesCells {α : Type} (r : BufferReader α) (c : α → List Cell) : Prop :=
  Takes r fun a l => List.Forall₂ Cell.Stands (c a) l

theorem stands_exactly (l : List UInt8) : List.Forall₂ Cell.Stands (exactly l) l := by
  induction l with
  | nil => exact List.Forall₂.nil
  | cons b l ih => exact List.Forall₂.cons rfl ih

theorem takes_bytes (n : ℕ) (error : String) :
    Takes (readBytes n error) fun bytes l => bytes = l ∧ l.length = n := by
  intro src offset bytes offset' hoff hcall
  have hread : (readBytes n error).call src offset =
      if src.length < offset + n then .error ⟨.invalidArgument, error⟩
      else .ok ((src.drop offset).take n, offset + n) := rfl
  rw [hread] at hcall
  split_ifs at hcall with hlen
  obtain ⟨rfl, rfl⟩ := Prod.mk.inj (Except.ok.inj hcall)
  have htake : ((src.drop offset).take n).length = n := by
    rw [List.length_take, List.length_drop]
    omega
  refine ⟨(src.drop offset).take n, ?_, by rw [htake], by omega, rfl, htake⟩
  rw [← List.drop_drop, List.take_append_drop]

theorem takes_bool : TakesCells readBoolFromBuffer boolCells := by
  refine ((takes_bytes 1 _).bind fun bytes => Takes.pure ⟨rfl, rfl⟩).mono (P := fun b l =>
    ∃ bytes l₁ l₂, l = l₁ ++ l₂ ∧ (bytes = l₁ ∧ l₁.length = 1) ∧ b = (bytes != [0]) ∧ l₂ = []) ?_
  rintro b l ⟨bytes, l₁, l₂, rfl, ⟨rfl, hlen⟩, rfl, rfl⟩
  obtain ⟨x, rfl⟩ := List.length_eq_one_iff.mp hlen
  refine List.Forall₂.cons ?_ List.Forall₂.nil
  simp [Cell.Stands, bne]

theorem netBytes_netWord {l : List UInt8} (h : l.length = 4) : netBytes (netWord l) = l := by
  match l, h with
  | [a, b, c, d], _ =>
    obtain ⟨ha, hb, hc, hd⟩ := UInt32.bytes_join a b c d
    simp only [netBytes, netWord, ha, hb, hc, hd]

theorem takes_uint32 : TakesCells readUint32FromBuffer uint32Cells := by
  refine ((takes_bytes 4 _).bind fun bytes => Takes.pure ⟨rfl, rfl⟩).mono (P := fun w l =>
    ∃ bytes l₁ l₂, l = l₁ ++ l₂ ∧ (bytes = l₁ ∧ l₁.length = 4) ∧ w = netWord bytes ∧ l₂ = []) ?_
  rintro w l ⟨bytes, l₁, l₂, rfl, ⟨rfl, hlen⟩, rfl, rfl⟩
  rw [uint32Cells, netBytes_netWord hlen, List.append_nil]
  exact stands_exactly bytes

theorem uint64Bytes_join (high low : UInt32) :
    uint64Bytes (high.toUInt64 <<< 32 ||| low.toUInt64) = netBytes high ++ netBytes low := by
  obtain ⟨hhigh, hlow⟩ := UInt64.halves_join high low
  rw [uint64Bytes, hhigh, hlow]

theorem takes_uint64 : TakesCells readUint64FromBuffer uint64Cells := by
  apply Takes.of_after
  apply takes_uint32.field
  intro high
  apply takes_uint32.field
  intro low
  apply Takes.record
  rw [uint64Cells, uint64Bytes_join]
  simp [uint32Cells, exactly]

theorem takes_string : TakesCells readStringFromBuffer stringCells := by
  refine (takes_uint32.bind fun len => takes_bytes len.toNat _).mono ?_
  rintro str l ⟨len, l₁, l₂, rfl, hlen, rfl, hstr⟩
  rw [stringCells, stringBytes, hstr, UInt32.ofNat_toNat, exactly, List.map_append]
  exact List.rel_append hlen (stands_exactly str)

theorem HandshakeMessage.takes : TakesCells fields cells := by
  apply Takes.of_after
  apply takes_uint32.field
  intro majorVersion
  apply takes_uint32.field
  intro minorVersion
  exact Takes.record (by simp [cells])

theorem RemoveFileResponse.takes : TakesCells fields cells := by
  apply Takes.of_after
  apply takes_string.field
  intro errorReason
  apply takes_bool.field
  intro success
  exact Takes.record (by simp [cells])

theorem DownloadFileResponse.takes : TakesCells fields cells := by
  apply Takes.of_after
  apply takes_bool.field
  intro found
  apply takes_string.field
  intro errorReason
  apply takes_string.field
  intro filePath
  apply takes_uint64.field
  intro fileSize
  exact Takes.record (by simp [cells])

theorem FileSizeResponse.takes : TakesCells fields cells := by
  apply Takes.of_after
  apply takes_bool.field
  intro found
  apply takes_string.field
  intro errorReason
  apply takes_uint64.field
  intro fileSize
  exact Takes.record (by simp [cells])

theorem DrawcallFilterConfigRequest.takes : TakesCells fields cells := by
  apply Takes.of_after
  apply takes_string.field
  intro targetRenderPassName
  apply takes_uint32.field
  intro vertexCount
  apply takes_uint32.field
  intro indexCount
  apply takes_uint32.field
  intro instanceCount
  apply takes_uint32.field
  intro maxDrawcalls
  apply takes_bool.field
  intro filterByVertexCount
  apply takes_bool.field
  intro filterByIndexCount
  apply takes_bool.field
  intro filterByInstanceCount
  apply takes_bool.field
  intro enableDrawcallLimit
  apply takes_bool.field
  intro filterByAlphaBlended
  apply takes_bool.field
  intro filterByRenderPass
  exact Takes.record (by simp [cells])

/-- **A counted list of records.** -/
theorem takes_records {α : Type} {r : BufferReader α} {c : α → List Cell} (h : TakesCells r c) :
    TakesCells (do
      let count ← readUint32FromBuffer
      r.times count.toNat) fun as => uint32Cells (UInt32.ofNat as.length) ++ as.flatMap c := by
  refine (takes_uint32.bind fun count => Takes.times h count.toNat).mono ?_
  rintro as l ⟨count, l₁, l₂, rfl, hcount, hlen, has⟩
  show List.Forall₂ Cell.Stands (uint32Cells (UInt32.ofNat as.length) ++ as.flatMap c) (l₁ ++ l₂)
  rw [hlen, UInt32.ofNat_toNat]
  exact List.rel_append hcount has

theorem LivePSOsResponse.takes : TakesCells fields fun psos =>
    uint32Cells (UInt32.ofNat psos.length) ++ psos.flatMap PSOInfo.cells := by
  apply takes_records
  apply Takes.of_after
  apply takes_string.field
  intro name
  apply takes_uint64.field
  intro pipelineHandle
  apply takes_bool.field
  intro hasAlphaBlend
  exact Takes.record (by simp [PSOInfo.cells])

theorem LiveRenderPassesResponse.takes : TakesCells fields fun rps =>
    uint32Cells (UInt32.ofNat rps.length) ++ rps.flatMap RenderPassInfo.cells := by
  apply takes_records
  apply Takes.of_after
  apply takes_string.field
  intro name
  apply takes_uint64.field
  intro renderPassHandle
  exact Takes.record (by simp [RenderPassInfo.cells])

/-! ## Strict decoding -/

/-- Serializing the message gives back the payload, where a boolean may stand as any byte but
zero. -/
structure Reencodes (m : Message) (src : Buffer) : Prop where
  written : m.serialize = m.cells.map Cell.written
  stands : List.Forall₂ Cell.Stands m.cells src

/-- A payload of the type that is accepted is the one that would be written. -/
def StrictlyDecoded (type : MessageType) (src : Buffer) : Prop :=
  ∀ m, Message.deserialize src type = .ok m → Reencodes m src

/-- The types that are an `EmptyMessage`. -/
def MessageType.emptyBody : MessageType → Bool
  | pingMessage | pongMessage | pm4CaptureRequest | drawcallFilterConfigResponse
  | livePSOsRequest | liveRenderPassesRequest | disableTimestampResponse => true
  | _ => false

theorem stands_of_deserializeWith {α : Type} {r : BufferReader α} {c : α → List Cell}
    {error : String} {src : Buffer} {a : α} (h : TakesCells r c)
    (hok : deserializeWith r error src = .ok a) : List.Forall₂ Cell.Stands (c a) src := by
  unfold deserializeWith at hok
  cases hcall : r.call src 0 with
  | error status =>
    rw [hcall] at hok
    cases hok
  | ok p =>
    obtain ⟨b, offset⟩ := p
    rw [hcall] at hok
    simp only at hok
    split_ifs at hok with hend
    obtain rfl := Except.ok.inj hok
    rw [not_not.mp hend] at hcall
    exact h.whole hcall

theorem stands_of_deserialize {type : MessageType} {src : Buffer} {m : Message}
    (hbody : type.emptyBody = true → src = [])
    (h : Message.deserialize src type = .ok m) : List.Forall₂ Cell.Stands m.cells src := by
  have hmap : ∀ {α : Type} {r : BufferReader α} {c : α → List Cell} {error : String}
      {f : α → Message}, TakesCells r c → (∀ a, (f a).cells = c a) →
      f <$> deserializeWith r error src = .ok m → List.Forall₂ Cell.Stands m.cells src := by
    intro α r c error f hr hc hok
    cases hdec : deserializeWith r error src with
    | error status =>
      rw [hdec] at hok
      cases hok
    | ok a =>
      rw [hdec] at hok
      obtain rfl : f a = m := Except.ok.inj hok
      rw [hc]
      exact stands_of_deserializeWith hr hdec
  have hempty : ∀ m' : Message, m'.cells = [] → src = [] →
      (Except.ok m' : Except Status Message) = .ok m → List.Forall₂ Cell.Stands m.cells src := by
    rintro m' hc rfl hok
    obtain rfl : m' = m := Except.ok.inj hok
    rw [hc]
    exact List.Forall₂.nil
  cases type with
  | handshakeRequest => exact hmap HandshakeMessage.takes (fun _ => rfl) h
  | handshakeResponse => exact hmap HandshakeMessage.takes (fun _ => rfl) h
  | pingMessage => exact hempty _ rfl (hbody rfl) h
  | pongMessage => exact hempty _ rfl (hbody rfl) h
  | pm4CaptureRequest => exact hempty _ rfl (hbody rfl) h
  | pm4CaptureResponse => exact hmap takes_string (fun _ => rfl) h
  | downloadFileRequest => exact hmap takes_string (fun _ => rfl) h
  | downloadFileResponse => exact hmap DownloadFileResponse.takes (fun _ => rfl) h
  | fileSizeRequest => exact hmap takes_string (fun _ => rfl) h
  | fileSizeResponse => exact hmap FileSizeResponse.takes (fun _ => rfl) h
  | removeFileRequest => exact hmap takes_string (fun _ => rfl) h
  | removeFileResponse => exact hmap RemoveFileResponse.takes (fun _ => rfl) h
  | drawcallFilterConfigRequest =>
    exact hmap DrawcallFilterConfigRequest.takes (fun _ => rfl) h
  | drawcallFilterConfigResponse => exact hempty _ rfl (hbody rfl) h
  | livePSOsRequest => exact hempty _ rfl (hbody rfl) h
  | livePSOsResponse => exact hmap LivePSOsResponse.takes (fun _ => rfl) h
  | liveRenderPassesRequest => exact hempty _ rfl (hbody rfl) h
  | liveRenderPassesResponse => exact hmap LiveRenderPassesResponse.takes (fun _ => rfl) h
  | disableTimestampRequest => exact hmap takes_bool (fun _ => rfl) h
  | disableTimestampResponse => exact hempty _ rfl (hbody rfl) h

/-- **Decoding is strict**: an accepted payload is the one that the decoded message is serialized
to, exactly unless it is a payload with bytes of a type without a body. -/
theorem strictlyDecoded_iff (type : MessageType) (src : Buffer) :
    StrictlyDecoded type src ↔ (type.emptyBody = true → src = []) := by
  constructor
  · intro h hbody
    have hignored : ∃ m, Message.deserialize src type = .ok m ∧ m.cells = [] := by
      cases type with
      | pingMessage => exact ⟨_, rfl, rfl⟩
      | pongMessage => exact ⟨_, rfl, rfl⟩
      | pm4CaptureRequest => exact ⟨_, rfl, rfl⟩
      | drawcallFilterConfigResponse => exact ⟨_, rfl, rfl⟩
      | livePSOsRequest => exact ⟨_, rfl, rfl⟩
      | liveRenderPassesRequest => exact ⟨_, rfl, rfl⟩
      | disableTimestampResponse => exact ⟨_, rfl, rfl⟩
      | _ => cases hbody
    obtain ⟨m, hok, hcells⟩ := hignored
    have hstands := (h m hok).stands
    rw [hcells] at hstands
    exact List.forall₂_nil_left_iff.mp hstands
  · intro hbody m h
    exact ⟨m.serialize_eq_cells, stands_of_deserialize hbody h⟩

/-- A ping with a byte that nobody reads is accepted. -/
theorem pingWithByte_not_strictlyDecoded : ¬ StrictlyDecoded .pingMessage [1] := by
  intro h
  have hstands := (h .pingMessage rfl).stands
  cases hstands

end Dive.Network
