import Dive.Lib.Reader
import Mathlib.Data.UInt

/-!
# Messages and their payloads

* `Status`: the error of a fallible call, by code and text.
* `Buffer`, `write…ToBuffer`, `read…FromBuffer`: the fields of a payload.
* `Message`: a message of any of the twenty types, with its fields; `Message.serialize` and
  `deserialize` are the payload in either direction.
-/

namespace Dive.Network

/-! ## Errors -/

/-- The codes of the errors. -/
inductive StatusCode
  | invalidArgument
  | notFound
  | alreadyExists
  | permissionDenied
  | failedPrecondition
  | aborted
  | outOfRange
  | internal
  | unavailable
  | deadlineExceeded
  | dataLoss
  deriving DecidableEq

/-- A status that is not OK. -/
structure Status where
  code : StatusCode
  message : String
  deriving DecidableEq

/-- `StatusWithContext`. -/
def Status.withContext (status : Status) (context : String) : Status :=
  { status with message := context ++ ": " ++ status.message }

/-! ## Buffers -/

/-- `Buffer`. -/
abbrev Buffer : Type := List UInt8

/-- A byte, 1 or 0. -/
def writeBoolToBuffer (value : Bool) (dest : Buffer) : Buffer := dest ++ [value.toUInt8]

/-- The bytes of a word in network order. -/
def netBytes (value : UInt32) : List UInt8 :=
  [(value >>> 24).toUInt8, (value >>> 16).toUInt8, (value >>> 8).toUInt8, value.toUInt8]

/-- Four bytes in network order. -/
def writeUint32ToBuffer (value : UInt32) (dest : Buffer) : Buffer := dest ++ netBytes value

/-- The high word, then the low word. -/
def writeUint64ToBuffer (value : UInt64) (dest : Buffer) : Buffer :=
  dest |> writeUint32ToBuffer (value >>> 32).toUInt32
    |> writeUint32ToBuffer (value &&& 0xFFFFFFFF).toUInt32

/-- The length as a word, then the characters. -/
def writeStringToBuffer (str : List UInt8) (dest : Buffer) : Buffer :=
  writeUint32ToBuffer (UInt32.ofNat str.length) dest ++ str

/-- Code that reads a payload. -/
abbrev BufferReader : Type → Type := Reader UInt8 Status

/-- The next `n` bytes, or the error that there are fewer. -/
def readBytes (n : ℕ) (error : String) : BufferReader (List UInt8) := fun src offset =>
  if src.length < offset + n then .error ⟨.invalidArgument, error⟩
  else .ok ((src.drop offset).take n, offset + n)

/-- The word of four bytes in network order. -/
def netWord : List UInt8 → UInt32
  | [b₀, b₁, b₂, b₃] =>
    b₀.toUInt32 <<< 24 ||| b₁.toUInt32 <<< 16 ||| b₂.toUInt32 <<< 8 ||| b₃.toUInt32
  | _ => 0

/-- Every byte but 0 is true. -/
def readBoolFromBuffer : BufferReader Bool := do
  let value ← readBytes 1 "Buffer too small to read a bool."
  return value != [0]

/-- Inverse of `writeUint32ToBuffer`. -/
def readUint32FromBuffer : BufferReader UInt32 := do
  let netVal ← readBytes 4 "Buffer too small to read an uint32_t."
  return netWord netVal

/-- Inverse of `writeUint64ToBuffer`. -/
def readUint64FromBuffer : BufferReader UInt64 := do
  let high ← readUint32FromBuffer
  let low ← readUint32FromBuffer
  return high.toUInt64 <<< 32 ||| low.toUInt64

/-- Inverse of `writeStringToBuffer`. -/
def readStringFromBuffer : BufferReader (List UInt8) := do
  let len ← readUint32FromBuffer
  readBytes len.toNat "Buffer too small for declared string length."

/-! ## Messages -/

/-- The types of the messages. -/
inductive MessageType
  | handshakeRequest
  | handshakeResponse
  | pingMessage
  | pongMessage
  | pm4CaptureRequest
  | pm4CaptureResponse
  | downloadFileRequest
  | downloadFileResponse
  | fileSizeRequest
  | fileSizeResponse
  | removeFileRequest
  | removeFileResponse
  | drawcallFilterConfigRequest
  | drawcallFilterConfigResponse
  | livePSOsRequest
  | livePSOsResponse
  | liveRenderPassesRequest
  | liveRenderPassesResponse
  | disableTimestampRequest
  | disableTimestampResponse
  deriving DecidableEq

/-- The value of the enumerator. -/
def MessageType.toUInt32 : MessageType → UInt32
  | handshakeRequest => 1
  | handshakeResponse => 2
  | pingMessage => 3
  | pongMessage => 4
  | pm4CaptureRequest => 5
  | pm4CaptureResponse => 6
  | downloadFileRequest => 7
  | downloadFileResponse => 8
  | fileSizeRequest => 9
  | fileSizeResponse => 10
  | removeFileRequest => 11
  | removeFileResponse => 12
  | drawcallFilterConfigRequest => 13
  | drawcallFilterConfigResponse => 14
  | livePSOsRequest => 15
  | livePSOsResponse => 16
  | liveRenderPassesRequest => 17
  | liveRenderPassesResponse => 18
  | disableTimestampRequest => 19
  | disableTimestampResponse => 20

/-- The version of a party. -/
structure HandshakeMessage where
  majorVersion : UInt32 := 0
  minorVersion : UInt32 := 0
  deriving DecidableEq

/-- The answer to a removal. -/
structure RemoveFileResponse where
  errorReason : List UInt8 := []
  success : Bool := false
  deriving DecidableEq

/-- What is announced before a file is sent. -/
structure DownloadFileResponse where
  found : Bool := false
  errorReason : List UInt8 := []
  filePath : List UInt8 := []
  fileSize : UInt64 := 0
  deriving DecidableEq

/-- The size of a file, if it was found. -/
structure FileSizeResponse where
  found : Bool := false
  errorReason : List UInt8 := []
  fileSize : UInt64 := 0
  deriving DecidableEq

/-- The filters of the layer. -/
structure DrawcallFilterConfigRequest where
  targetRenderPassName : List UInt8 := []
  vertexCount : UInt32 := 0
  indexCount : UInt32 := 0
  instanceCount : UInt32 := 0
  maxDrawcalls : UInt32 := 0
  filterByVertexCount : Bool := false
  filterByIndexCount : Bool := false
  filterByInstanceCount : Bool := false
  enableDrawcallLimit : Bool := false
  filterByAlphaBlended : Bool := false
  filterByRenderPass : Bool := false
  deriving DecidableEq

/-- A live pipeline. -/
structure PSOInfo where
  name : List UInt8 := []
  pipelineHandle : UInt64 := 0
  hasAlphaBlend : Bool := false
  deriving DecidableEq

/-- A live render pass. -/
structure RenderPassInfo where
  name : List UInt8 := []
  renderPassHandle : UInt64 := 0
  deriving DecidableEq

/-- `ISerializable`: a message, by its type and fields. A `StringMessage` has its string. -/
inductive Message
  | handshakeRequest (m : HandshakeMessage)
  | handshakeResponse (m : HandshakeMessage)
  | pingMessage
  | pongMessage
  | pm4CaptureRequest
  | pm4CaptureResponse (str : List UInt8)
  | downloadFileRequest (str : List UInt8)
  | downloadFileResponse (m : DownloadFileResponse)
  | fileSizeRequest (str : List UInt8)
  | fileSizeResponse (m : FileSizeResponse)
  | removeFileRequest (str : List UInt8)
  | removeFileResponse (m : RemoveFileResponse)
  | drawcallFilterConfigRequest (m : DrawcallFilterConfigRequest)
  | drawcallFilterConfigResponse
  | livePSOsRequest
  | livePSOsResponse (psos : List PSOInfo)
  | liveRenderPassesRequest
  | liveRenderPassesResponse (rps : List RenderPassInfo)
  | disableTimestampRequest (disable : Bool)
  | disableTimestampResponse
  deriving DecidableEq

/-- `GetMessageType`. -/
def Message.getMessageType : Message → MessageType
  | handshakeRequest _ => .handshakeRequest
  | handshakeResponse _ => .handshakeResponse
  | pingMessage => .pingMessage
  | pongMessage => .pongMessage
  | pm4CaptureRequest => .pm4CaptureRequest
  | pm4CaptureResponse _ => .pm4CaptureResponse
  | downloadFileRequest _ => .downloadFileRequest
  | downloadFileResponse _ => .downloadFileResponse
  | fileSizeRequest _ => .fileSizeRequest
  | fileSizeResponse _ => .fileSizeResponse
  | removeFileRequest _ => .removeFileRequest
  | removeFileResponse _ => .removeFileResponse
  | drawcallFilterConfigRequest _ => .drawcallFilterConfigRequest
  | drawcallFilterConfigResponse => .drawcallFilterConfigResponse
  | livePSOsRequest => .livePSOsRequest
  | livePSOsResponse _ => .livePSOsResponse
  | liveRenderPassesRequest => .liveRenderPassesRequest
  | liveRenderPassesResponse _ => .liveRenderPassesResponse
  | disableTimestampRequest _ => .disableTimestampRequest
  | disableTimestampResponse => .disableTimestampResponse

/-- The fields that a reader yields, if it ends at the end of the payload. -/
def deserializeWith {α : Type} (fields : BufferReader α) (trailing : String) (src : Buffer) :
    Except Status α :=
  match fields.call src 0 with
  | .error status => .error status
  | .ok (a, offset) =>
    if offset ≠ src.length then .error ⟨.invalidArgument, trailing⟩ else .ok a

namespace HandshakeMessage

/-- Both version numbers. -/
def serialize (m : HandshakeMessage) : Buffer :=
  [] |> writeUint32ToBuffer m.majorVersion |> writeUint32ToBuffer m.minorVersion

/-- Both version numbers. -/
def fields : BufferReader HandshakeMessage := do
  let majorVersion ← readUint32FromBuffer
  let minorVersion ← readUint32FromBuffer
  return { majorVersion, minorVersion }

/-- Refuses trailing data. -/
def deserialize (src : Buffer) : Except Status HandshakeMessage :=
  deserializeWith fields "Handshake message has unexpected trailing data." src

end HandshakeMessage

namespace StringMessage

/-- The string alone. -/
def serialize (str : List UInt8) : Buffer := [] |> writeStringToBuffer str

/-- Refuses trailing data. -/
def deserialize (src : Buffer) : Except Status (List UInt8) :=
  deserializeWith readStringFromBuffer "String message has unexpected trailing data." src

end StringMessage

namespace RemoveFileResponse

/-- The reason first. -/
def serialize (m : RemoveFileResponse) : Buffer :=
  [] |> writeStringToBuffer m.errorReason |> writeBoolToBuffer m.success

/-- The reason first. -/
def fields : BufferReader RemoveFileResponse := do
  let errorReason ← readStringFromBuffer
  let success ← readBoolFromBuffer
  return { errorReason, success }

/-- Refuses trailing data. -/
def deserialize (src : Buffer) : Except Status RemoveFileResponse :=
  deserializeWith fields "RemoveFileResponse has unexpected trailing data." src

end RemoveFileResponse

namespace DownloadFileResponse

/-- In the order of the structure. -/
def serialize (m : DownloadFileResponse) : Buffer :=
  [] |> writeBoolToBuffer m.found |> writeStringToBuffer m.errorReason
    |> writeStringToBuffer m.filePath |> writeUint64ToBuffer m.fileSize

/-- In the order of the structure. -/
def fields : BufferReader DownloadFileResponse := do
  let found ← readBoolFromBuffer
  let errorReason ← readStringFromBuffer
  let filePath ← readStringFromBuffer
  let fileSize ← readUint64FromBuffer
  return { found, errorReason, filePath, fileSize }

/-- Refuses trailing data. -/
def deserialize (src : Buffer) : Except Status DownloadFileResponse :=
  deserializeWith fields "Message has unexpected trailing data." src

end DownloadFileResponse

namespace FileSizeResponse

/-- In the order of the structure. -/
def serialize (m : FileSizeResponse) : Buffer :=
  [] |> writeBoolToBuffer m.found |> writeStringToBuffer m.errorReason
    |> writeUint64ToBuffer m.fileSize

/-- In the order of the structure. -/
def fields : BufferReader FileSizeResponse := do
  let found ← readBoolFromBuffer
  let errorReason ← readStringFromBuffer
  let fileSize ← readUint64FromBuffer
  return { found, errorReason, fileSize }

/-- Refuses trailing data. -/
def deserialize (src : Buffer) : Except Status FileSizeResponse :=
  deserializeWith fields "Message has unexpected trailing data." src

end FileSizeResponse

namespace DrawcallFilterConfigRequest

/-- In the order of the structure. -/
def serialize (m : DrawcallFilterConfigRequest) : Buffer :=
  [] |> writeStringToBuffer m.targetRenderPassName |> writeUint32ToBuffer m.vertexCount
    |> writeUint32ToBuffer m.indexCount |> writeUint32ToBuffer m.instanceCount
    |> writeUint32ToBuffer m.maxDrawcalls |> writeBoolToBuffer m.filterByVertexCount
    |> writeBoolToBuffer m.filterByIndexCount |> writeBoolToBuffer m.filterByInstanceCount
    |> writeBoolToBuffer m.enableDrawcallLimit |> writeBoolToBuffer m.filterByAlphaBlended
    |> writeBoolToBuffer m.filterByRenderPass

/-- In the order of the structure. -/
def fields : BufferReader DrawcallFilterConfigRequest := do
  let targetRenderPassName ← readStringFromBuffer
  let vertexCount ← readUint32FromBuffer
  let indexCount ← readUint32FromBuffer
  let instanceCount ← readUint32FromBuffer
  let maxDrawcalls ← readUint32FromBuffer
  let filterByVertexCount ← readBoolFromBuffer
  let filterByIndexCount ← readBoolFromBuffer
  let filterByInstanceCount ← readBoolFromBuffer
  let enableDrawcallLimit ← readBoolFromBuffer
  let filterByAlphaBlended ← readBoolFromBuffer
  let filterByRenderPass ← readBoolFromBuffer
  return { targetRenderPassName, vertexCount, indexCount, instanceCount, maxDrawcalls,
           filterByVertexCount, filterByIndexCount, filterByInstanceCount, enableDrawcallLimit,
           filterByAlphaBlended, filterByRenderPass }

/-- Refuses trailing data. -/
def deserialize (src : Buffer) : Except Status DrawcallFilterConfigRequest :=
  deserializeWith fields "DrawcallFilteringRequest has unexpected trailing data." src

end DrawcallFilterConfigRequest

namespace LivePSOsResponse

/-- The name, the handle, the blending. -/
def writePSO (dest : Buffer) (pso : PSOInfo) : Buffer :=
  dest |> writeStringToBuffer pso.name |> writeUint64ToBuffer pso.pipelineHandle
    |> writeBoolToBuffer pso.hasAlphaBlend

/-- The number of pipelines, then each. -/
def serialize (psos : List PSOInfo) : Buffer :=
  psos.foldl writePSO ([] |> writeUint32ToBuffer (UInt32.ofNat psos.length))

/-- Inverse of `writePSO`. -/
def readPSO : BufferReader PSOInfo := do
  let name ← readStringFromBuffer
  let pipelineHandle ← readUint64FromBuffer
  let hasAlphaBlend ← readBoolFromBuffer
  return { name, pipelineHandle, hasAlphaBlend }

/-- As many pipelines as are counted. -/
def fields : BufferReader (List PSOInfo) := do
  let count ← readUint32FromBuffer
  readPSO.times count.toNat

/-- Refuses trailing data. -/
def deserialize (src : Buffer) : Except Status (List PSOInfo) :=
  deserializeWith fields "LivePSOsResponse has unexpected trailing data." src

end LivePSOsResponse

namespace LiveRenderPassesResponse

/-- The name, the handle. -/
def writeRenderPass (dest : Buffer) (rp : RenderPassInfo) : Buffer :=
  dest |> writeStringToBuffer rp.name |> writeUint64ToBuffer rp.renderPassHandle

/-- The number of passes, then each. -/
def serialize (rps : List RenderPassInfo) : Buffer :=
  rps.foldl writeRenderPass ([] |> writeUint32ToBuffer (UInt32.ofNat rps.length))

/-- Inverse of `writeRenderPass`. -/
def readRenderPass : BufferReader RenderPassInfo := do
  let name ← readStringFromBuffer
  let renderPassHandle ← readUint64FromBuffer
  return { name, renderPassHandle }

/-- As many passes as are counted. -/
def fields : BufferReader (List RenderPassInfo) := do
  let count ← readUint32FromBuffer
  readRenderPass.times count.toNat

/-- Refuses trailing data. -/
def deserialize (src : Buffer) : Except Status (List RenderPassInfo) :=
  deserializeWith fields "LiveRenderPassesResponse has unexpected trailing data." src

end LiveRenderPassesResponse

namespace DisableTimestampRequest

/-- The flag alone. -/
def serialize (disable : Bool) : Buffer := [] |> writeBoolToBuffer disable

/-- Refuses trailing data. -/
def deserialize (src : Buffer) : Except Status Bool :=
  deserializeWith readBoolFromBuffer "DisableTimestampRequest has unexpected trailing data." src

end DisableTimestampRequest

namespace Message

/-- `Serialize`, into an empty buffer. -/
def serialize : Message → Buffer
  | handshakeRequest m => m.serialize
  | handshakeResponse m => m.serialize
  | pingMessage => []
  | pongMessage => []
  | pm4CaptureRequest => []
  | pm4CaptureResponse str => StringMessage.serialize str
  | downloadFileRequest str => StringMessage.serialize str
  | downloadFileResponse m => m.serialize
  | fileSizeRequest str => StringMessage.serialize str
  | fileSizeResponse m => m.serialize
  | removeFileRequest str => StringMessage.serialize str
  | removeFileResponse m => m.serialize
  | drawcallFilterConfigRequest m => m.serialize
  | drawcallFilterConfigResponse => []
  | livePSOsRequest => []
  | livePSOsResponse psos => LivePSOsResponse.serialize psos
  | liveRenderPassesRequest => []
  | liveRenderPassesResponse rps => LiveRenderPassesResponse.serialize rps
  | disableTimestampRequest disable => DisableTimestampRequest.serialize disable
  | disableTimestampResponse => []

/-- `Deserialize`, of an object of the type. An `EmptyMessage` does not look at the payload. -/
def deserialize (src : Buffer) : MessageType → Except Status Message
  | .handshakeRequest => handshakeRequest <$> HandshakeMessage.deserialize src
  | .handshakeResponse => handshakeResponse <$> HandshakeMessage.deserialize src
  | .pingMessage => .ok pingMessage
  | .pongMessage => .ok pongMessage
  | .pm4CaptureRequest => .ok pm4CaptureRequest
  | .pm4CaptureResponse => pm4CaptureResponse <$> StringMessage.deserialize src
  | .downloadFileRequest => downloadFileRequest <$> StringMessage.deserialize src
  | .downloadFileResponse => downloadFileResponse <$> DownloadFileResponse.deserialize src
  | .fileSizeRequest => fileSizeRequest <$> StringMessage.deserialize src
  | .fileSizeResponse => fileSizeResponse <$> FileSizeResponse.deserialize src
  | .removeFileRequest => removeFileRequest <$> StringMessage.deserialize src
  | .removeFileResponse => removeFileResponse <$> RemoveFileResponse.deserialize src
  | .drawcallFilterConfigRequest =>
    drawcallFilterConfigRequest <$> DrawcallFilterConfigRequest.deserialize src
  | .drawcallFilterConfigResponse => .ok drawcallFilterConfigResponse
  | .livePSOsRequest => .ok livePSOsRequest
  | .livePSOsResponse => livePSOsResponse <$> LivePSOsResponse.deserialize src
  | .liveRenderPassesRequest => .ok liveRenderPassesRequest
  | .liveRenderPassesResponse =>
    liveRenderPassesResponse <$> LiveRenderPassesResponse.deserialize src
  | .disableTimestampRequest =>
    disableTimestampRequest <$> DisableTimestampRequest.deserialize src
  | .disableTimestampResponse => .ok disableTimestampResponse

end Message

/-- The type with a given value: the cases of the switch in `ReceiveSocketMessage`. -/
def MessageType.ofUInt32? (type : UInt32) : Option MessageType :=
  if type = 1 then some handshakeRequest
  else if type = 2 then some handshakeResponse
  else if type = 3 then some pingMessage
  else if type = 4 then some pongMessage
  else if type = 5 then some pm4CaptureRequest
  else if type = 6 then some pm4CaptureResponse
  else if type = 7 then some downloadFileRequest
  else if type = 8 then some downloadFileResponse
  else if type = 9 then some fileSizeRequest
  else if type = 10 then some fileSizeResponse
  else if type = 11 then some removeFileRequest
  else if type = 12 then some removeFileResponse
  else if type = 13 then some drawcallFilterConfigRequest
  else if type = 14 then some drawcallFilterConfigResponse
  else if type = 15 then some livePSOsRequest
  else if type = 16 then some livePSOsResponse
  else if type = 17 then some liveRenderPassesRequest
  else if type = 18 then some liveRenderPassesResponse
  else if type = 19 then some disableTimestampRequest
  else if type = 20 then some disableTimestampResponse
  else none

end Dive.Network
