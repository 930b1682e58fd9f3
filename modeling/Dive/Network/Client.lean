import Dive.Network.Socket

/-!
# The client

* `TcpClient`: the connection, if there is one, and the status.
* `exchange`: a request and the message that answers it, with the exits that all operations share;
  `Operation.perform`: the operations.
* `connect`, `disconnect`, `keepAliveFailed`: what else changes the connection or the status.
-/

namespace Dive.Network

inductive ClientStatus
  | disconnected
  | connecting
  | connected
  | connectionFailed
  deriving DecidableEq

/-- `TcpClient`. -/
structure TcpClient where
  connection : Option SocketConnection := none
  status : ClientStatus := .disconnected
  keepAliveRunning : Bool := false

/-- Code of the client. -/
abbrev ClientM : Type → Type := Fallible TcpClient Status

namespace TcpClient

/-- `IsConnected`. -/
def isConnected (c : TcpClient) : Bool :=
  c.status = .connected && c.connection.elim false (·.isOpen)

/-- A call on the connection; its failure is a value. -/
def onConnection {α : Type} (x : SocketM α) : ClientM (Except Status α) := modifyGet fun c =>
  match c.connection with
  | none => (.error ⟨.invalidArgument, "Provided SocketConnection is null."⟩, c)
  | some s => ((x.outcome s).1, { c with connection := some (x.outcome s).2 })

/-- `SetClientStatus`. -/
def setClientStatus (status : ClientStatus) : ClientM Unit :=
  modify fun c => { c with status := status }

/-- `SetStatusAndReturnError`. -/
def setStatusAndReturnError {α : Type} (status : ClientStatus) (error : Status) : ClientM α := do
  setClientStatus status
  throw error

/-- The texts in which the operations differ. -/
structure ExchangeTexts where
  notConnected : String
  send : String
  receive : String
  mismatch : String

/-- The texts of an operation that builds all of them from its name. -/
def textsOf (operation : String) (mismatch : String) : ExchangeTexts where
  notConnected := operation ++ ": Client is not connected."
  send := operation ++ ": SendSocketMessage fail"
  receive := operation ++ ": ReceiveSocketMessage fail"
  mismatch := operation ++ ": Unexpected message type in " ++ mismatch ++ " (Expected: "

/-- What every operation does: it sends a request, and receives a message of the type expected. -/
def exchange (texts : ExchangeTexts) (request : Message) (expected : MessageType) :
    ClientM Message := do
  let c ← get
  if !c.isConnected then throw ⟨.failedPrecondition, texts.notConnected⟩
  else
    match ← onConnection (sendSocketMessage request) with
    | .error status =>
      setStatusAndReturnError .connectionFailed (status.withContext texts.send)
    | .ok () =>
      match ← onConnection receiveSocketMessage with
      | .error status =>
        setStatusAndReturnError .connectionFailed (status.withContext texts.receive)
      | .ok response =>
        if response.getMessageType ≠ expected then
          throw ⟨.failedPrecondition, texts.mismatch ++ toString expected.toUInt32.toNat ++
            ", Got: " ++ toString response.getMessageType.toUInt32.toNat ++ ")."⟩
        else return response

end TcpClient

/-- The characters of a `std::string`. -/
def text (str : List UInt8) : String := String.ofList (str.map fun b => Char.ofNat b.toNat)

/-! ## Files -/

/-- The file that is written: whether it opens, and which of the writes succeed. -/
structure LocalFile where
  path : List UInt8
  opens : Bool := true
  writes : ℕ → Bool := fun _ => true

def kChunkSize : ℕ := 4096

/-- The loop of `ReceiveFile`, with `size` bytes left to receive and `n` chunks behind it. -/
def receiveFileLoop (file : LocalFile) : ℕ → ℕ → ℕ → List UInt8 → SocketM (List UInt8)
  | 0, _, _, written => return written
  | fuel + 1, size, n, written =>
    if size = 0 then return written
    else do
      match ← (recv (min kChunkSize size)).attempt with
      | .error status =>
        throw (status.withContext
          ("ReceiveFile: Failed to receive chunk for '" ++ text file.path ++ "'"))
      | .ok received =>
        if !file.writes n then
          throw ⟨.internal, "ReceiveFile: Failed to write to file '" ++ text file.path ++ "'"⟩
        else receiveFileLoop file fuel (size - received.length) (n + 1) (written ++ received)

/-- `ReceiveFile`; its value is what the file holds. -/
def receiveFile (file : LocalFile) (fileSize : ℕ) : SocketM (List UInt8) :=
  if !file.opens then
    throw ⟨.permissionDenied,
      "ReceiveFile: Failed to open file '" ++ text file.path ++ "' for writing."⟩
  else receiveFileLoop file fileSize fileSize 0 []

/-! ## Operations -/

structure DrawcallFilterConfig where
  targetRenderPassName : List UInt8 := []
  targetVertexCount : UInt32 := 0
  targetIndexCount : UInt32 := 0
  targetInstanceCount : UInt32 := 0
  maxDrawcalls : UInt32 := 0
  filterByVertexCount : Bool := false
  filterByIndexCount : Bool := false
  filterByInstanceCount : Bool := false
  enableDrawcallLimit : Bool := false
  filterByAlphaBlended : Bool := false
  filterByRenderPass : Bool := false

/-- What an operation returns besides its status, and the file that it has written. -/
inductive Value
  | none
  | path (str : List UInt8)
  | size (fileSize : UInt64)
  | psos (psos : List PSOInfo)
  | renderPasses (rps : List RenderPassInfo)
  | file (contents : List UInt8)
  deriving DecidableEq

def kHandshakeMajorVersion : UInt32 := 1

def kHandshakeMinorVersion : UInt32 := 0

namespace TcpClient

/-- `StartPm4Capture`. -/
def startPm4Capture : ClientM Value := do
  match ← exchange (textsOf "StartPm4Capture" "Capture response") .pm4CaptureRequest
      .pm4CaptureResponse with
  | .pm4CaptureResponse str => return .path str
  | _ =>
    throw ⟨.internal, "StartPm4Capture: Failed to cast received message to Pm4CaptureResponse."⟩

/-- `DownloadFileFromServer`, after the response. -/
def receiveDownload (file : LocalFile) (response : DownloadFileResponse) : ClientM Value := do
  if !response.found then
    throw ⟨.notFound, "DownloadFileFromServer: Server could not provide file. Reason: " ++
      text response.errorReason⟩
  else
    match ← onConnection (receiveFile file response.fileSize.toNat) with
    | .error status =>
      setStatusAndReturnError .connectionFailed
        (status.withContext "DownloadFileFromServer: ReceiveFile fail")
    | .ok contents => return .file contents

/-- `DownloadFileFromServer`. The last branch is not reached: the type was compared. -/
def downloadFileFromServer (remoteFilePath : List UInt8) (file : LocalFile) : ClientM Value := do
  match ← exchange (textsOf "DownloadFileFromServer" "Download response")
      (.downloadFileRequest remoteFilePath) .downloadFileResponse with
  | .downloadFileResponse response => receiveDownload file response
  | _ => throw ⟨.internal, ""⟩

/-- `GetCaptureFileSize`. -/
def getCaptureFileSize (remoteFilePath : List UInt8) : ClientM Value := do
  match ← exchange (textsOf "GetCaptureFileSize" "response") (.fileSizeRequest remoteFilePath)
      .fileSizeResponse with
  | .fileSizeResponse response =>
    if !response.found then
      throw ⟨.notFound, "GetCaptureFileSize: Server could not find file. Reason: " ++
        text response.errorReason⟩
    else return .size response.fileSize
  | _ => throw ⟨.internal, ""⟩

/-- `RemoveFile`. -/
def removeFile (remoteFilePath : List UInt8) : ClientM Value := do
  match ← exchange (textsOf "RemoveFile" "response") (.removeFileRequest remoteFilePath)
      .removeFileResponse with
  | .removeFileResponse response =>
    if !response.success then
      throw ⟨.internal, "RemoveFile: Server failed to remove file. Reason: " ++
        text response.errorReason⟩
    else return .none
  | _ => throw ⟨.internal, "RemoveFile: Failed to cast received message to RemoveFileResponse."⟩

/-- `SendDrawcallFilterConfig`. -/
def sendDrawcallFilterConfig (config : DrawcallFilterConfig) : ClientM Value := do
  let _ ← exchange (textsOf "SendDrawcallFilterConfig" "response")
    (.drawcallFilterConfigRequest {
      targetRenderPassName := config.targetRenderPassName
      vertexCount := config.targetVertexCount
      indexCount := config.targetIndexCount
      instanceCount := config.targetInstanceCount
      maxDrawcalls := config.maxDrawcalls
      filterByVertexCount := config.filterByVertexCount
      filterByIndexCount := config.filterByIndexCount
      filterByInstanceCount := config.filterByInstanceCount
      enableDrawcallLimit := config.enableDrawcallLimit
      filterByAlphaBlended := config.filterByAlphaBlended
      filterByRenderPass := config.filterByRenderPass }) .drawcallFilterConfigResponse
  return .none

/-- `GetLivePSOs`. -/
def getLivePSOs : ClientM Value := do
  match ← exchange { textsOf "GetLivePSOs" "response" with
      notConnected := "GetLivePSOs: Client not connected." } .livePSOsRequest .livePSOsResponse with
  | .livePSOsResponse psos => return .psos psos
  | _ => throw ⟨.internal, ""⟩

/-- `GetLiveRenderPasses`. -/
def getLiveRenderPasses : ClientM Value := do
  match ← exchange { textsOf "GetLiveRenderPasses" "response" with
      notConnected := "GetLiveRenderPasses: Client not connected." } .liveRenderPassesRequest
      .liveRenderPassesResponse with
  | .liveRenderPassesResponse rps => return .renderPasses rps
  | _ => throw ⟨.internal, ""⟩

/-- `SendDisableTimestamp`. -/
def sendDisableTimestamp (disable : Bool) : ClientM Value := do
  let _ ← exchange (textsOf "SendDisableTimestamp" "response") (.disableTimestampRequest disable)
    .disableTimestampResponse
  return .none

/-- `PingServer`. -/
def pingServer : ClientM Value := do
  let _ ← exchange (textsOf "PingServer" "Ping response") .pingMessage .pongMessage
  return .none

/-- `PerformHandshake`. -/
def performHandshake : ClientM Value := do
  match ← exchange { textsOf "PerformHandshake" "Handshake response" with
      receive := "PerformHandshake: ReceiveSocketMessage failed" }
      (.handshakeRequest ⟨kHandshakeMajorVersion, kHandshakeMinorVersion⟩) .handshakeResponse with
  | .handshakeResponse response =>
    if response.majorVersion ≠ kHandshakeMajorVersion ∨
        response.minorVersion ≠ kHandshakeMinorVersion then
      throw ⟨.failedPrecondition, "PerformHandshake: Handshake version mismatch. Server is v" ++
        toString response.majorVersion.toNat ++ "." ++ toString response.minorVersion.toNat ++
        " Client requires v" ++ toString kHandshakeMajorVersion.toNat ++ "." ++
        toString kHandshakeMinorVersion.toNat⟩
    else return .none
  | _ =>
    throw ⟨.internal, "PerformHandshake: Failed to cast received message to HandShakeResponse."⟩

/-! ## The connection -/

/-- `StopKeepAlive`. -/
def stopKeepAlive : ClientM Unit := modify fun c => { c with keepAliveRunning := false }

/-- `StartKeepAlive`. -/
def startKeepAlive : ClientM Unit := do
  let c ← get
  if c.keepAliveRunning then
    throw ⟨.alreadyExists, "StartKeepAlive: Keep-alive is already running."⟩
  else if !c.isConnected then
    throw ⟨.failedPrecondition, "StartKeepAlive: Client is not connected."⟩
  else set { c with keepAliveRunning := true }

/-- `m_connection.reset`. -/
def resetConnection : ClientM Unit := modify fun c => { c with connection := none }

/-- How far `Connect` gets: the errors of `SocketConnection::Create` or of its `Connect`, or a new
connection. -/
inductive ConnectAnswer
  | notCreated (status : Status)
  | notConnected (status : Status)
  | connected

/-- `Connect`. -/
def connect (answer : ConnectAnswer) (connection : SocketConnection) : ClientM Value := do
  let c ← get
  if c.status = .connected ∨ c.status = .connecting then
    throw ⟨.alreadyExists,
      "Connect: Client is already connected or in the process of connecting."⟩
  else
    stopKeepAlive
    resetConnection
    setClientStatus .connecting
    match answer with
    | .notCreated status =>
      setStatusAndReturnError .connectionFailed (status.withContext "Connect")
    | .notConnected status =>
      setStatusAndReturnError .connectionFailed (status.withContext "Connect: Connect fail")
    | .connected =>
      modify fun c => { c with connection := some connection }
      setClientStatus .connected
      match ← performHandshake.attempt with
      | .error status =>
        resetConnection
        setStatusAndReturnError .connectionFailed
          (status.withContext "Connect: Handshake failed")
      | .ok _ =>
        match ← startKeepAlive.attempt with
        | .error status =>
          if status.code = .alreadyExists then return .none
          else
            resetConnection
            setStatusAndReturnError .connectionFailed
              (status.withContext "Connect: KeepAlive fail")
        | .ok _ => return .none

/-- `Disconnect`. -/
def disconnect : ClientM Value := do
  stopKeepAlive
  resetConnection
  setClientStatus .disconnected
  return .none

/-- What `KeepAliveLoop` does when its ping has failed. -/
def keepAliveFailed : ClientM Value := do
  setClientStatus .connectionFailed
  stopKeepAlive
  return .none

end TcpClient

end Dive.Network
