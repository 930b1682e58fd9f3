import Dive.Network.Client
import Dive.Network.RoundTrip

/-!
# The server, and the files that it sends

* `FileAnswers`: what the server's calls see of a file, each at its own time: before the answer, when
  `SendFile` opens it, and at each read.
* `downloadFile`, `handleMessage`: a request and what the server does for it; `serve`: the requests
  of a connection.
* `handedOut`: how many bytes `SendFile` gets from the file.
* **`serve_inStep`**: if these are as many as announced, and no `send` fails but by a reset, the
  server keeps in step: it sends the bytes that it has announced, or closes the connection.
-/

namespace Dive.Network

open Fallible

/-- What the calls about a file return, in the order of the calls: `is_regular_file` and
`file_size` with their error codes, the size at which `SendFile` opens it, the success of its
reads, and the bytes that these find. -/
structure FileAnswers where
  isRegularFile : Bool
  regularError : Option String := none
  fileSize : Except String UInt64
  openedSize : Option ℤ
  chunkReads : ℕ → Bool := fun _ => true
  contents : ℕ → UInt8 := fun _ => 0

/-- The bytes of the text of an error. -/
def errorText (error : String) : List UInt8 := error.toUTF8.toList

/-- The loop of `SendFile`, with `left` bytes left, after `n` chunks. -/
def sendFileLoop (path : List UInt8) (file : FileAnswers) : ℕ → ℕ → ℕ → SocketM Unit
  | 0, _, _ => return ()
  | fuel + 1, left, n =>
    if left = 0 then return ()
    else if !file.chunkReads n then
      throw ⟨.internal, "SendFile: Failed to read chunk from file '" ++ text path ++ "'"⟩
    else do
      let data := (List.range (min kChunkSize left)).map fun i => file.contents (n * kChunkSize + i)
      match ← (send data).attempt with
      | .error status =>
        throw (status.withContext
          ("SendFile: Failed to send chunk for file '" ++ text path ++ "'"))
      | .ok () => sendFileLoop path file fuel (left - min kChunkSize left) (n + 1)

/-- `SendFile`. A read that succeeds fills the chunk, so the exit for an empty one is not reached. -/
def sendFile (path : List UInt8) (file : FileAnswers) : SocketM Unit :=
  match file.openedSize with
  | none => throw ⟨.notFound, "SendFile: Failed to open file '" ++ text path ++ "'"⟩
  | some size =>
    if size < 0 then
      throw ⟨.internal, "SendFile: Failed to determine size of file '" ++ text path ++ "'"⟩
    else sendFileLoop path file size.toNat size.toNat 0

/-! ## Requests -/

/-- What `DownloadFile` and `GetFileSize` say of a file: its size, or why there is none. -/
def findFile (file : FileAnswers) : Except (List UInt8) UInt64 :=
  if file.isRegularFile then
    match file.fileSize with
    | .ok size => .ok size
    | .error error => .error (errorText error)
  else .error (errorText (file.regularError.getD "Path does not exist or is not a regular file"))

def downloadFileResponse (path : List UInt8) (file : FileAnswers) : DownloadFileResponse :=
  match findFile file with
  | .ok size => { found := true, filePath := path, fileSize := size }
  | .error reason => { found := false, errorReason := reason }

/-- `DownloadFile`. -/
def downloadFile (path : List UInt8) (file : FileAnswers) : SocketM Unit := do
  match ← (sendSocketMessage (.downloadFileResponse (downloadFileResponse path file))).attempt with
  | .error status => throw (status.withContext "DownloadFile")
  | .ok () =>
    if !(downloadFileResponse path file).found then
      throw ⟨.notFound, text (downloadFileResponse path file).errorReason⟩
    else sendFile path file

/-- `GetFileSize`. -/
def getFileSize (file : FileAnswers) : SocketM Unit :=
  sendSocketMessage (.fileSizeResponse (match findFile file with
    | .ok size => { found := true, fileSize := size }
    | .error reason => { found := false, errorReason := reason }))

/-- `RemoveFile`, by what `remove` returns. -/
def removeFile (removed : Bool) (error : Option String) : SocketM Unit :=
  sendSocketMessage (.removeFileResponse (if removed then { success := true }
    else { success := false, errorReason := errorText (error.getD "Unknown error") }))

/-- What a request meets: the network, the file that it names, and what the layer holds. -/
structure ServerEnv where
  sends : List SendAnswer := []
  file : FileAnswers
  removed : Bool := false
  removeError : Option String := none
  livePSOs : List PSOInfo := []
  liveRenderPasses : List RenderPassInfo := []

/-- `ServerMessageHandler::HandleMessage`. Errors are logged only. -/
def handleMessage (env : ServerEnv) : Message → SocketM Unit
  | .drawcallFilterConfigRequest _ => do
    let _ ← (sendSocketMessage .drawcallFilterConfigResponse).attempt
  | .livePSOsRequest => do
    let _ ← (sendSocketMessage (.livePSOsResponse env.livePSOs)).attempt
  | .liveRenderPassesRequest => do
    let _ ← (sendSocketMessage (.liveRenderPassesResponse env.liveRenderPasses)).attempt
  | .disableTimestampRequest _ => do
    let _ ← (sendSocketMessage .disableTimestampResponse).attempt
  | .pingMessage => do
    let _ ← (sendSocketMessage .pongMessage).attempt
  | .handshakeRequest request => do
    let _ ← (sendSocketMessage (.handshakeResponse request)).attempt
  | .downloadFileRequest path => do
    let _ ← (downloadFile path env.file).attempt
  | .fileSizeRequest _ => do
    let _ ← (getFileSize env.file).attempt
  | .removeFileRequest _ => do
    let _ ← (removeFile env.removed env.removeError).attempt
  | _ => return ()

/-- A request that was handled. -/
structure Served where
  env : ServerEnv
  request : Message
  before : SocketConnection
  after : SocketConnection

/-- The loop of the server over the requests of a client. The connection is reset when it is
closed, or nothing can be received. -/
def serve : SocketConnection → List ServerEnv → List Served
  | _, [] => []
  | s, env :: envs =>
    if !s.isOpen then []
    else
      match receiveSocketMessage.outcome { s with sendAnswers := env.sends } with
      | (.error _, _) => []
      | (.ok request, t) =>
        let after := ((handleMessage env request).outcome t).2
        ⟨env, request, t, after⟩ :: serve after envs

/-! ## Bytes announced and bytes sent -/

/-- After the answer to a download that announces `n` bytes, the server has sent `n` bytes, or has
closed the connection. -/
def Served.InStep (x : Served) : Prop :=
  ∀ path answered, x.request = .downloadFileRequest path →
    (downloadFileResponse path x.env.file).found = true →
    (sendSocketMessage (.downloadFileResponse (downloadFileResponse path x.env.file))).outcome
      x.before = (.ok (), answered) →
    x.after.isOpen = false ∨ ∃ raw, x.after.outgoing = answered.outgoing ++ raw ∧
      raw.length = (downloadFileResponse path x.env.file).fileSize.toNat

/-- The bytes of a file of `left` bytes, from chunk `n` on, before the first that cannot be read. -/
def handedOutFrom (file : FileAnswers) : ℕ → ℕ → ℕ → ℕ
  | 0, _, _ => 0
  | fuel + 1, left, n =>
    if left = 0 ∨ file.chunkReads n = false then 0
    else min kChunkSize left + handedOutFrom file fuel (left - min kChunkSize left) (n + 1)

/-- How many bytes the file hands out to `SendFile`: as many as it has when it is opened, or fewer
if a chunk cannot be read. -/
def FileAnswers.handedOut (file : FileAnswers) : ℕ :=
  match file.openedSize with
  | none => 0
  | some size => handedOutFrom file size.toNat size.toNat 0

/-- The network takes the bytes, or resets the connection. -/
def SentOrReset (as : List SendAnswer) : Prop := ∀ a ∈ as, (∃ n, a = .sent n) ∨ a = .reset

/-- A file that hands out as many bytes as are announced of it; asked of the file of every request,
whether it is a download or not. -/
def ServerEnv.Steady (env : ServerEnv) : Prop := SentOrReset env.sends ∧
  ∀ size, findFile env.file = .ok size → env.file.handedOut = size.toNat

variable {s s' : SocketConnection} {path : List UInt8} {file : FileAnswers} {fuel left n : ℕ}

theorem send_sentOrReset (h : SentOrReset s.sendAnswers) (data : List UInt8) {u : SocketConnection}
    {r : Except Status Unit} (hready : s.Ready) (hx : (send data).outcome s = (r, u)) :
    ((∃ e, r = .error e) ∧ u.isOpen = false) ∨
      r = .ok () ∧ u.Ready ∧ u.outgoing = s.outgoing ++ data ∧ SentOrReset u.sendAnswers := by
  rcases send_cases hready data with ⟨as, has, hout⟩ | ⟨a, ha, hne, e, t, hout, hreset⟩
  · rw [hout] at hx
    cases hx
    exact Or.inr ⟨rfl, hready, rfl, fun a ha => h a (has a ha)⟩
  · rw [hout] at hx
    cases hx
    exact Or.inl ⟨⟨e, rfl⟩, hreset ((h a ha).resolve_left fun ⟨n, hn⟩ => hne n hn)⟩

/-- **The loop of `SendFile`** sends what the file hands out, or finds the connection reset. -/
theorem sendFileLoop_spec (hf : left ≤ fuel) (h : SentOrReset s.sendAnswers) (hready : s.Ready) :
    ((sendFileLoop path file fuel left n).outcome s).2.isOpen = false ∨
      ∃ raw, ((sendFileLoop path file fuel left n).outcome s).2.outgoing = s.outgoing ++ raw ∧
        raw.length = handedOutFrom file fuel left n := by
  induction fuel generalizing s left n with
  | zero => exact Or.inr ⟨[], by simp [sendFileLoop, handedOutFrom]⟩
  | succ fuel ih =>
    rw [sendFileLoop, handedOutFrom]
    by_cases hleft : left = 0
    · exact Or.inr ⟨[], by simp [hleft]⟩
    · rw [if_neg hleft]
      cases hread : file.chunkReads n with
      | false => exact Or.inr ⟨[], by simp⟩
      | true =>
        simp only [Bool.not_true, Bool.false_eq_true, if_false, hleft, outcome_bind,
          outcome_attempt]
        obtain ⟨data, hdata⟩ : ∃ data, data = (List.range (min kChunkSize left)).map fun i =>
          file.contents (n * kChunkSize + i) := ⟨_, rfl⟩
        have hdlen : data.length = min kChunkSize left := by
          rw [hdata, List.length_map, List.length_range]
        rw [← hdata]
        rcases hsend : (send data).outcome s with ⟨r, t⟩
        rcases send_sentOrReset h _ hready hsend with
          ⟨⟨e, rfl⟩, hclosed⟩ | ⟨rfl, hready', hout, hs⟩
        · exact Or.inl hclosed
        · have hpos : 0 < min kChunkSize left := by
            rw [kChunkSize]
            omega
          rcases @ih t (left - min kChunkSize left) (n + 1) (by omega) hs hready' with
            hclosed | ⟨raw, hraw, hlen⟩
          · exact Or.inl hclosed
          · refine Or.inr ⟨data ++ raw, ?_, ?_⟩
            · rw [hout, List.append_assoc] at hraw
              exact hraw
            · rw [List.length_append, hlen, hdlen]
              simp

/-- **`SendFile`** sends what the file hands out, or finds the connection reset. -/
theorem sendFile_spec (h : SentOrReset s.sendAnswers) (hready : s.Ready) :
    ((sendFile path file).outcome s).2.isOpen = false ∨
      ∃ raw, ((sendFile path file).outcome s).2.outgoing = s.outgoing ++ raw ∧
        raw.length = file.handedOut := by
  unfold sendFile FileAnswers.handedOut
  cases file.openedSize with
  | none => exact Or.inr ⟨[], by simp⟩
  | some size =>
    dsimp only
    by_cases hsize : size < 0
    · rw [if_pos hsize, Int.toNat_of_nonpos hsize.le]
      exact Or.inr ⟨[], by simp [handedOutFrom]⟩
    · rw [if_neg hsize]
      exact sendFileLoop_spec (le_refl _) h hready

theorem sendSocketMessage_ok {m : Message} {u : Unit}
    (h : (sendSocketMessage m).outcome s = (.ok u, s')) :
    s'.Ready ∧ ∀ a ∈ s'.sendAnswers, a ∈ s.sendAnswers := by
  unfold sendSocketMessage at h
  dsimp only at h
  split_ifs at h
  · cases h
  · obtain ⟨u, t, hheader, hpayload⟩ := outcome_bind_eq_ok.mp h
    obtain ⟨hready, as, has, rfl⟩ := send_ok hheader
    obtain ⟨-, bs, hbs, rfl⟩ := send_ok hpayload
    exact ⟨hready, fun a ha => has a (hbs a ha)⟩

/-- **A download** in step with the client. -/
theorem handleMessage_inStep {env : ServerEnv} {request : Message} (h : env.Steady)
    (hs : SentOrReset s.sendAnswers) :
    (Served.mk env request s ((handleMessage env request).outcome s).2).InStep := by
  rintro path answered rfl hfound hsend
  obtain ⟨hready, hsub⟩ := sendSocketMessage_ok hsend
  have hafter : ((handleMessage env (.downloadFileRequest path)).outcome s).2 =
      ((sendFile path env.file).outcome answered).2 := by
    have hfound : (downloadFileResponse path env.file).found = true := hfound
    simp only [handleMessage, downloadFile, outcome_bind, outcome_attempt, hsend, hfound]
    rfl
  have hsize : (downloadFileResponse path env.file).fileSize.toNat = env.file.handedOut := by
    cases hfind : findFile env.file with
    | ok size => simp [downloadFileResponse, hfind, h.2 size hfind]
    | error reason => simp [downloadFileResponse, hfind] at hfound
  show ((handleMessage env (.downloadFileRequest path)).outcome s).2.isOpen = false ∨
    ∃ raw, ((handleMessage env (.downloadFileRequest path)).outcome s).2.outgoing =
      answered.outgoing ++ raw ∧ raw.length = (downloadFileResponse path env.file).fileSize.toNat
  rw [hafter, hsize]
  exact sendFile_spec (fun a ha => hs a (hsub a ha)) hready

theorem receiveSocketMessage_sendAnswers {m : Message}
    (h : receiveSocketMessage.outcome s = (.ok m, s')) : s'.sendAnswers = s.sendAnswers := by
  obtain ⟨header, payload, type, r, -, -, -, -, rfl, -⟩ := receiveSocketMessage_ok h
  rfl

/-- **The server keeps in step** over every list of requests, if each file that it announces hands
out as many bytes as announced, and no `send` fails but by a reset. -/
theorem serve_inStep (s : SocketConnection) (envs : List ServerEnv) (h : ∀ env ∈ envs, env.Steady) :
    ∀ x ∈ serve s envs, x.InStep := by
  induction envs generalizing s with
  | nil => simp [serve]
  | cons env envs ih =>
    intro x hx
    rw [serve] at hx
    split_ifs at hx
    · cases hx
    · rcases hreceive : receiveSocketMessage.outcome { s with sendAnswers := env.sends } with
        ⟨e | request, t⟩
      · rw [hreceive] at hx
        cases hx
      · rw [hreceive] at hx
        have henv := h env List.mem_cons_self
        rcases List.mem_cons.mp hx with rfl | hx
        · refine handleMessage_inStep henv ?_
          rw [receiveSocketMessage_sendAnswers hreceive]
          exact henv.1
        · exact ih _ (fun e he => h e (List.mem_cons_of_mem env he)) x hx

/-- A request for the file `/`. -/
def downloadRequest : SocketConnection where
  incoming := Source.ofList [0, 0, 0, 7, 0, 0, 0, 5, 0, 0, 0, 1, 47]

/-- A file of three bytes that stays as it is. -/
def steadyFile : FileAnswers where
  isRegularFile := true
  fileSize := .ok 3
  openedSize := some 3
  contents := fun i => UInt8.ofNat i

theorem serve_steadyFile : (serve downloadRequest [{ file := steadyFile }]).length = 1 ∧
    ∀ x ∈ serve downloadRequest [{ file := steadyFile }], x.InStep := by
  refine ⟨by decide, serve_inStep downloadRequest [{ file := steadyFile }] ?_⟩
  intro env henv
  rw [List.mem_singleton.mp henv]
  refine ⟨by simp [SentOrReset], fun size hsize => ?_⟩
  cases hsize
  decide

/-- The file, when a byte is written to it between the answer and the transfer, and when it is
removed. -/
def grownFile : FileAnswers := { steadyFile with openedSize := some 4 }

def removedFile : FileAnswers := { steadyFile with openedSize := none }

theorem not_inStep {x : Served} {answered : SocketConnection}
    (hrequest : x.request = .downloadFileRequest path)
    (hfound : (downloadFileResponse path x.env.file).found = true)
    (hsend : (sendSocketMessage
      (.downloadFileResponse (downloadFileResponse path x.env.file))).outcome x.before =
        (.ok (), answered)) (hopen : x.after.isOpen = true)
    (hlen : x.after.outgoing.length ≠ answered.outgoing.length +
      (downloadFileResponse path x.env.file).fileSize.toNat) : ¬ x.InStep := by
  intro h
  rcases h path answered hrequest hfound hsend with hclosed | ⟨raw, hout, hraw⟩
  · rw [hopen] at hclosed
    cases hclosed
  · rw [hout, List.length_append, hraw] at hlen
    exact hlen rfl

/-- **A file that changes.** Three bytes are announced; four are sent, or none, and the connection
stays open. -/
theorem changedFile_outOfStep :
    (∃ x ∈ serve downloadRequest [{ file := grownFile }], ¬ x.InStep) ∧
      ∃ x ∈ serve downloadRequest [{ file := removedFile }], ¬ x.InStep := by
  constructor
  · exact ⟨(serve downloadRequest [{ file := grownFile }]).head (by decide), List.head_mem _,
      @not_inStep [47] _ _ rfl rfl rfl rfl (by decide)⟩
  · exact ⟨(serve downloadRequest [{ file := removedFile }]).head (by decide), List.head_mem _,
      @not_inStep [47] _ _ rfl rfl rfl rfl (by decide)⟩

end Dive.Network
