import Dive.Network.Client
import Dive.Network.RoundTrip

/-!
# Requests and the answers to them

* `Answer`: what a server sends for one request: a message, and the bytes of the file that it
  announces. `Delivery`: how much of it arrives, in which chunks, with which failures between.
* `Event`, `run`: the calls on a client, and what each returns.
* `Synced`: between two calls a connected client has no unread bytes. **`perform_spec`**: every
  operation keeps this, and answers to others than downloads announce no file.
* **`run_answered`**: in a run without such answers, an operation that succeeds returns the data of
  the answer to its own request; once bytes are left unread, none succeeds.
-/

namespace Dive.Network

open Fallible

/-! ## Servers -/

/-- The message of a type word and a payload, if it is one. -/
def messageOf (type : UInt32) (payload : List UInt8) : Option Message :=
  (MessageType.ofUInt32? type).bind fun t => (Message.deserialize payload t).toOption

/-- The size of the file that follows a message. -/
def announced : Option Message → ℕ
  | some (.downloadFileResponse response) => if response.found then response.fileSize.toNat else 0
  | _ => 0

/-- What a server sends for a request: any type and payload, and the file that they announce. -/
structure Answer where
  type : UInt32
  payload : List UInt8
  file : List UInt8
  payload_lt : payload.length < 2 ^ 32
  file_announced : file.length = announced (messageOf type payload)

namespace Answer

def bytes (a : Answer) : List UInt8 :=
  netBytes a.type ++ netBytes (UInt32.ofNat a.payload.length) ++ (a.payload ++ a.file)

def message (a : Answer) : Option Message := messageOf a.type a.payload

end Answer

/-- What arrives of an answer, and what `send` does for the request. -/
structure Delivery where
  answer : Answer
  sends : List SendAnswer := []
  segments : List (Segment UInt8)
  ending : Option ℕ := none
  recvFailure : ℕ → RecvFailure := fun _ => .timeout
  arrived : Source.contentsOf segments <+: answer.bytes

/-- The connection on which an answer arrives. -/
def SocketConnection.deliver (s : SocketConnection) (d : Delivery) : SocketConnection :=
  { s with
    sendAnswers := d.sends
    incoming := ⟨s.incoming.segments ++ d.segments, d.ending⟩
    recvFailure := d.recvFailure }

/-! ## Runs of the client -/

/-- The operations of a client that need a connection. -/
inductive Operation
  | startPm4Capture
  | downloadFileFromServer (remoteFilePath : List UInt8) (file : LocalFile)
  | getCaptureFileSize (remoteFilePath : List UInt8)
  | removeFile (remoteFilePath : List UInt8)
  | sendDrawcallFilterConfig (config : DrawcallFilterConfig)
  | getLivePSOs
  | getLiveRenderPasses
  | sendDisableTimestamp (disable : Bool)
  | pingServer

namespace Operation

open TcpClient

/-- The call of the client. -/
def perform : Operation → ClientM Value
  | .startPm4Capture => TcpClient.startPm4Capture
  | .downloadFileFromServer remote file => TcpClient.downloadFileFromServer remote file
  | .getCaptureFileSize remote => TcpClient.getCaptureFileSize remote
  | .removeFile remote => TcpClient.removeFile remote
  | .sendDrawcallFilterConfig config => TcpClient.sendDrawcallFilterConfig config
  | .getLivePSOs => TcpClient.getLivePSOs
  | .getLiveRenderPasses => TcpClient.getLiveRenderPasses
  | .sendDisableTimestamp disable => TcpClient.sendDisableTimestamp disable
  | .pingServer => TcpClient.pingServer

/-- The data that an answer has for the operation; `none` if it is not an answer to it, or reports
a failure. -/
def dataOf (answer : Answer) : Operation → Option Value
  | .startPm4Capture =>
    match answer.message with
    | some (.pm4CaptureResponse str) => some (.path str)
    | _ => none
  | .downloadFileFromServer _ _ =>
    match answer.message with
    | some (.downloadFileResponse response) =>
      if response.found then some (.file answer.file) else none
    | _ => none
  | .getCaptureFileSize _ =>
    match answer.message with
    | some (.fileSizeResponse response) =>
      if response.found then some (.size response.fileSize) else none
    | _ => none
  | .removeFile _ =>
    match answer.message with
    | some (.removeFileResponse response) => if response.success then some .none else none
    | _ => none
  | .sendDrawcallFilterConfig _ =>
    if answer.message = some .drawcallFilterConfigResponse then some .none else none
  | .getLivePSOs =>
    match answer.message with
    | some (.livePSOsResponse psos) => some (.psos psos)
    | _ => none
  | .getLiveRenderPasses =>
    match answer.message with
    | some (.liveRenderPassesResponse rps) => some (.renderPasses rps)
    | _ => none
  | .sendDisableTimestamp _ =>
    if answer.message = some .disableTimestampResponse then some .none else none
  | .pingServer => if answer.message = some .pongMessage then some .none else none

def isDownload : Operation → Bool
  | .downloadFileFromServer _ _ => true
  | _ => false

end Operation

/-- A call on a client, with what the network does for it. -/
inductive Event
  | connect (answer : TcpClient.ConnectAnswer) (delivery : Delivery)
  | disconnect
  | keepAliveFailed
  | operation (operation : Operation) (delivery : Delivery)

namespace TcpClient

/-- The client whose connection an answer arrives on. -/
def deliver (c : TcpClient) (d : Delivery) : TcpClient :=
  { c with connection := c.connection.map (·.deliver d) }

/-- A call. -/
def handle (c : TcpClient) : Event → Except Status Value × TcpClient
  | .connect answer delivery => (connect answer (({} : SocketConnection).deliver delivery)).outcome c
  | .disconnect => disconnect.outcome c
  | .keepAliveFailed => keepAliveFailed.outcome c
  | .operation operation delivery => operation.perform.outcome (c.deliver delivery)

/-- The bytes that have arrived, or are to arrive, for earlier requests. -/
def unread (c : TcpClient) : List UInt8 := c.connection.elim [] (·.incoming.contents)

variable {c c' : TcpClient} {s s' : SocketConnection} {a : Answer} {m : Message}
  {r : Except Status Message} {l₁ l₂ k₁ k₂ : List UInt8}

theorem prefix_of_append (hlen : l₁.length = k₁.length) (h : l₁ ++ l₂ <+: k₁ ++ k₂) :
    l₁ = k₁ ∧ l₂ <+: k₂ := by
  obtain ⟨t, ht⟩ := h
  rw [List.append_assoc] at ht
  obtain ⟨h1, h2⟩ := List.append_inj ht hlen
  exact ⟨h1, t, h2⟩

theorem receiveSocketMessage_answer (h : s.incoming.contents <+: a.bytes)
    (hm : receiveSocketMessage.outcome s = (.ok m, s')) :
    a.message = some m ∧ ∃ i, s' = { s with incoming := i } ∧ i.contents <+: a.file := by
  obtain ⟨header, payload, type, i, hheader, hpayload, htype, hdes, rfl, hcontents⟩ :=
    receiveSocketMessage_ok hm
  rw [hcontents] at h
  obtain ⟨rfl, hafter⟩ := prefix_of_append hheader h
  have hfirst : (netBytes a.type ++ netBytes (UInt32.ofNat a.payload.length)).take 4 =
      netBytes a.type := List.take_left' rfl
  have hsecond : (netBytes a.type ++ netBytes (UInt32.ofNat a.payload.length)).drop 4 =
      netBytes (UInt32.ofNat a.payload.length) := List.drop_left' rfl
  rw [hsecond, netWord_netBytes, UInt32.toNat_ofNat', Nat.mod_eq_of_lt a.payload_lt] at hpayload
  rw [hfirst, netWord_netBytes] at htype
  obtain ⟨rfl, hfile⟩ := prefix_of_append hpayload hafter
  refine ⟨?_, i, rfl, hfile⟩
  rw [Answer.message, messageOf, htype, Option.bind_some, hdes]
  rfl

theorem sendSocketMessage_incoming {u : Unit} (h : (sendSocketMessage m).outcome s = (.ok u, s')) :
    s'.incoming = s.incoming := by
  unfold sendSocketMessage at h
  dsimp only at h
  split_ifs at h
  · cases h
  · obtain ⟨u, t, hheader, hpayload⟩ := outcome_bind_eq_ok.mp h
    obtain ⟨-, as, -, rfl⟩ := send_ok hheader
    obtain ⟨-, bs, -, rfl⟩ := send_ok hpayload
    rfl

theorem outcome_onConnection {α : Type} (x : SocketM α) (h : c.connection = some s) :
    (onConnection x).outcome c =
      (.ok (x.outcome s).1, { c with connection := some (x.outcome s).2 }) := by
  simp [onConnection, h]

theorem exists_connection (h : c.isConnected = true) : ∃ s, c.connection = some s := by
  cases hs : c.connection with
  | none => simp [isConnected, hs] at h
  | some s => exact ⟨s, rfl⟩

/-- **A request and its answer.** Either the client is not connected afterwards, or it has received
the message of the answer, and has left the file. -/
theorem exchange_spec (texts : ExchangeTexts) (request : Message) (expected : MessageType)
    (h : c.unread <+: a.bytes) (hx : (exchange texts request expected).outcome c = (r, c')) :
    ((∃ e, r = .error e) ∧ c'.isConnected = false) ∨
      ∃ m, a.message = some m ∧ c'.unread <+: a.file ∧
        ((∃ e, r = .error e) ∧ m.getMessageType ≠ expected ∨
          r = .ok m ∧ m.getMessageType = expected) := by
  unfold exchange at hx
  rw [outcome_bind, outcome_get] at hx
  dsimp only at hx
  split_ifs at hx with hconn
  · cases hx
    exact Or.inl ⟨⟨_, rfl⟩, by simpa using hconn⟩
  · obtain ⟨s, hs⟩ := exists_connection (c := c) (by simpa using hconn)
    rw [outcome_bind_ok (outcome_onConnection _ hs)] at hx
    rcases hsend : (sendSocketMessage request).outcome s with ⟨e | u, s'⟩
    · rw [hsend] at hx
      cases hx
      exact Or.inl ⟨⟨_, rfl⟩, rfl⟩
    · rw [hsend] at hx
      dsimp only at hx
      rw [outcome_bind_ok (outcome_onConnection (s := s') _ rfl)] at hx
      rcases hrecv : receiveSocketMessage.outcome s' with ⟨e | m, s''⟩
      · rw [hrecv] at hx
        cases hx
        exact Or.inl ⟨⟨_, rfl⟩, rfl⟩
      · have hin : s'.incoming.contents <+: a.bytes := by
          rw [sendSocketMessage_incoming hsend]
          simpa [unread, hs] using h
        obtain ⟨hmessage, i, rfl, hi⟩ := receiveSocketMessage_answer hin hrecv
        rw [hrecv] at hx
        dsimp only at hx
        refine Or.inr ⟨m, hmessage, ?_⟩
        split_ifs at hx with htype
        · cases hx
          exact ⟨hi, Or.inl ⟨⟨_, rfl⟩, htype⟩⟩
        · cases hx
          exact ⟨hi, Or.inr ⟨rfl, not_not.mp htype⟩⟩

theorem exchange_bind_spec {texts : ExchangeTexts} {request : Message} {expected : MessageType}
    {k : Message → ClientM Value} {v : Except Status Value}
    (hk : ∀ m c, ((k m).outcome c).2 = c) (h : c.unread <+: a.bytes)
    (hx : (exchange texts request expected >>= k).outcome c = (v, c')) :
    (c'.isConnected = true → c'.unread <+: a.file) ∧ ∀ w, v = .ok w →
      ∃ m, a.message = some m ∧ m.getMessageType = expected ∧ ((k m).outcome c').1 = .ok w := by
  rcases hexchange : (exchange texts request expected).outcome c with ⟨r, u⟩
  rcases exchange_spec texts request expected h hexchange with
    ⟨⟨e, rfl⟩, hconn⟩ | ⟨m, hm, hfile, ⟨⟨e, rfl⟩, htype⟩ | ⟨rfl, htype⟩⟩
  · rw [outcome_bind_error hexchange] at hx
    cases hx
    exact ⟨fun hc => by simp [hconn] at hc, by simp⟩
  · rw [outcome_bind_error hexchange] at hx
    cases hx
    exact ⟨fun _ => hfile, by simp⟩
  · rw [outcome_bind_ok hexchange] at hx
    obtain rfl : c' = u := by rw [← hk m u, hx]
    refine ⟨fun _ => hfile, fun w hw => ⟨m, hm, htype, ?_⟩⟩
    rw [hx, hw]

end TcpClient

/-! ## Files -/

theorem receiveFileLoop_ok {file : LocalFile} {fuel size n : ℕ} {written contents : List UInt8}
    {s s' : SocketConnection} (hf : size ≤ fuel)
    (h : (receiveFileLoop file fuel size n written).outcome s = (.ok contents, s')) :
    ∃ got i, contents = written ++ got ∧ got.length = size ∧ s' = { s with incoming := i } ∧
      s.incoming.contents = got ++ i.contents := by
  induction fuel generalizing s size n written with
  | zero =>
    obtain rfl : size = 0 := by omega
    cases h
    exact ⟨[], s'.incoming, by simp⟩
  | succ fuel ih =>
    rw [receiveFileLoop] at h
    by_cases hs : size = 0
    · subst hs
      cases h
      exact ⟨[], s'.incoming, by simp⟩
    · rw [if_neg hs, outcome_bind, outcome_attempt] at h
      rcases hrecv : (recv (min kChunkSize size)).outcome s with ⟨e | got, t⟩
      · rw [hrecv] at h
        cases h
      · obtain ⟨hlen, i, rfl, hi⟩ := recv_ok hrecv
        rw [hrecv] at h
        dsimp only at h
        split_ifs at h
        · cases h
        · have hpos : 0 < min kChunkSize size := by
            rw [kChunkSize]
            omega
          obtain ⟨got', i', rfl, hlen', rfl, hi'⟩ := ih (by omega) h
          refine ⟨got ++ got', i', ?_, ?_, rfl, ?_⟩
          · rw [List.append_assoc]
          · rw [List.length_append, hlen', hlen]
            omega
          · rw [hi, List.append_assoc]
            exact congrArg _ hi'

/-- **`ReceiveFile`, when it succeeds,** has taken as many bytes as it was told. -/
theorem receiveFile_ok {file : LocalFile} {size : ℕ} {contents : List UInt8}
    {s s' : SocketConnection} (h : (receiveFile file size).outcome s = (.ok contents, s')) :
    contents.length = size ∧ ∃ i, s' = { s with incoming := i } ∧
      s.incoming.contents = contents ++ i.contents := by
  unfold receiveFile at h
  split_ifs at h
  · cases h
  · obtain ⟨got, i, rfl, hlen, rfl, hi⟩ := receiveFileLoop_ok (le_refl _) h
    exact ⟨hlen, i, rfl, hi⟩

/-! ## Operations -/

variable {c c' : TcpClient} {a : Answer} {m : Message} {v : Except Status Value}

theorem Answer.file_eq_nil (hm : a.message = some m)
    (htype : m.getMessageType ≠ .downloadFileResponse) : a.file = [] := by
  have hlen := a.file_announced
  rw [show messageOf a.type a.payload = some m from hm] at hlen
  refine List.eq_nil_of_length_eq_zero (hlen.trans ?_)
  cases m <;> first | rfl | exact absurd rfl htype

theorem Answer.length_file {response : DownloadFileResponse}
    (hm : a.message = some (.downloadFileResponse response)) :
    a.file.length = if response.found then response.fileSize.toNat else 0 := by
  have hlen := a.file_announced
  rwa [show messageOf a.type a.payload = _ from hm] at hlen

theorem receiveDownload_spec {file : LocalFile} {response : DownloadFileResponse}
    (hm : a.message = some (.downloadFileResponse response)) (h : c.unread <+: a.file)
    (hx : (TcpClient.receiveDownload file response).outcome c = (v, c')) :
    (c'.isConnected = true → c'.unread = []) ∧
      ∀ w, v = .ok w → response.found = true ∧ w = .file a.file := by
  have hlen := Answer.length_file hm
  unfold TcpClient.receiveDownload at hx
  cases hfound : response.found with
  | false =>
    rw [hfound] at hx hlen
    cases hx
    rw [List.eq_nil_of_length_eq_zero hlen, List.prefix_nil] at h
    exact ⟨fun _ => h, by simp⟩
  | true =>
    rw [hfound] at hx hlen
    simp only [Bool.not_true, Bool.false_eq_true, if_false, if_true] at hx hlen
    cases hs : c.connection with
    | none =>
      rw [outcome_bind_ok (s := c) (t := c)
        (a := .error ⟨.invalidArgument, "Provided SocketConnection is null."⟩)
        (by simp [TcpClient.onConnection, hs])] at hx
      cases hx
      exact ⟨(fun hc => by cases hc), by simp⟩
    | some s =>
      rw [outcome_bind_ok (TcpClient.outcome_onConnection _ hs)] at hx
      rcases hfile : (receiveFile file response.fileSize.toNat).outcome s with ⟨e | contents, s'⟩
      · rw [hfile] at hx
        cases hx
        exact ⟨(fun hc => by cases hc), by simp⟩
      · obtain ⟨hclen, i, rfl, hi⟩ := receiveFile_ok hfile
        rw [hfile] at hx
        cases hx
        have hin : contents ++ i.contents <+: a.file ++ [] := by
          rw [List.append_nil, ← hi]
          simpa [TcpClient.unread, hs] using h
        obtain ⟨rfl, hnil⟩ := TcpClient.prefix_of_append (hclen.trans hlen.symm) hin
        refine ⟨fun _ => List.prefix_nil.mp hnil, fun w hw => ⟨rfl, ?_⟩⟩
        exact (Except.ok.inj hw).symm

theorem downloadFileFromServer_spec {remote : List UInt8} {file : LocalFile}
    (h : c.unread <+: a.bytes)
    (hx : (TcpClient.downloadFileFromServer remote file).outcome c = (v, c')) :
    (c'.isConnected = true → c'.unread = []) ∧
      ∀ w, v = .ok w → (Operation.downloadFileFromServer remote file).dataOf a = some w := by
  unfold TcpClient.downloadFileFromServer at hx
  rcases hexchange : (TcpClient.exchange (TcpClient.textsOf "DownloadFileFromServer"
    "Download response") (.downloadFileRequest remote) .downloadFileResponse).outcome c with ⟨r, u⟩
  rcases TcpClient.exchange_spec _ _ _ h hexchange with
    ⟨⟨e, rfl⟩, hconn⟩ | ⟨m, hm, hfile, ⟨⟨e, rfl⟩, htype⟩ | ⟨rfl, htype⟩⟩
  · rw [outcome_bind_error hexchange] at hx
    cases hx
    exact ⟨fun hc => by simp [hconn] at hc, by simp⟩
  · rw [outcome_bind_error hexchange] at hx
    cases hx
    rw [Answer.file_eq_nil hm htype, List.prefix_nil] at hfile
    exact ⟨fun _ => hfile, by simp⟩
  · rw [outcome_bind_ok hexchange] at hx
    cases m with
    | downloadFileResponse response =>
      obtain ⟨hunread, hvalue⟩ := receiveDownload_spec hm hfile hx
      refine ⟨hunread, fun w hw => ?_⟩
      obtain ⟨hfound, rfl⟩ := hvalue w hw
      simp [Operation.dataOf, hm, hfound]
    | _ => cases htype

/-- **Every operation.** What it returns is the data of the answer; and if the answer announces a
file only to a download, a client that is still connected has read all of it. -/
theorem Operation.perform_spec (op : Operation) (h : c.unread <+: a.bytes)
    (hx : op.perform.outcome c = (v, c')) :
    (op.isDownload = true ∨ a.file = [] → c'.isConnected = true → c'.unread = []) ∧
      ∀ w, v = .ok w → op.dataOf a = some w := by
  have key : ∀ {texts : TcpClient.ExchangeTexts} {request : Message} {expected : MessageType}
      {k : Message → ClientM Value}, (∀ m c, ((k m).outcome c).2 = c) →
      (TcpClient.exchange texts request expected >>= k).outcome c = (v, c') →
      (∀ m, a.message = some m → m.getMessageType = expected →
        ∀ w u, ((k m).outcome u).1 = .ok w → op.dataOf a = some w) → op.isDownload = false →
      (op.isDownload = true ∨ a.file = [] → c'.isConnected = true → c'.unread = []) ∧
        ∀ w, v = .ok w → op.dataOf a = some w := by
    intro texts request expected k hk hx hdata hop
    obtain ⟨hunread, hvalue⟩ := TcpClient.exchange_bind_spec hk h hx
    refine ⟨fun hor hc => ?_, fun w hw => ?_⟩
    · have hnil : a.file = [] := hor.resolve_left (by simp [hop])
      have := hunread hc
      rwa [hnil, List.prefix_nil] at this
    · obtain ⟨m, hm, htype, hout⟩ := hvalue w hw
      exact hdata m hm htype w _ hout
  cases op with
  | startPm4Capture =>
    refine key (fun m c => by cases m <;> rfl) hx (fun m hm htype w u hout => ?_) rfl
    cases m with
    | pm4CaptureResponse str =>
      cases hout
      simp [Operation.dataOf, hm]
    | _ => cases htype
  | downloadFileFromServer remote file =>
    obtain ⟨hunread, hvalue⟩ := downloadFileFromServer_spec h hx
    exact ⟨fun _ => hunread, hvalue⟩
  | getCaptureFileSize remote =>
    refine key (fun m c => ?_) hx (fun m hm htype w u hout => ?_) rfl
    · cases m with
      | fileSizeResponse response => cases hfound : response.found <;> simp [hfound]
      | _ => rfl
    · cases m with
      | fileSizeResponse response =>
        cases hfound : response.found with
        | false =>
          simp only [hfound] at hout
          cases hout
        | true =>
          simp only [hfound] at hout
          cases hout
          simp [Operation.dataOf, hm, hfound]
      | _ => cases htype
  | removeFile remote =>
    refine key (fun m c => ?_) hx (fun m hm htype w u hout => ?_) rfl
    · cases m with
      | removeFileResponse response => cases hsuccess : response.success <;> simp [hsuccess]
      | _ => rfl
    · cases m with
      | removeFileResponse response =>
        cases hsuccess : response.success with
        | false =>
          simp only [hsuccess] at hout
          cases hout
        | true =>
          simp only [hsuccess] at hout
          cases hout
          simp [Operation.dataOf, hm, hsuccess]
      | _ => cases htype
  | sendDrawcallFilterConfig config =>
    refine key (fun m c => rfl) hx (fun m hm htype w u hout => ?_) rfl
    cases m with
    | drawcallFilterConfigResponse =>
      cases hout
      simp [Operation.dataOf, hm]
    | _ => cases htype
  | getLivePSOs =>
    refine key (fun m c => by cases m <;> rfl) hx (fun m hm htype w u hout => ?_) rfl
    cases m with
    | livePSOsResponse psos =>
      cases hout
      simp [Operation.dataOf, hm]
    | _ => cases htype
  | getLiveRenderPasses =>
    refine key (fun m c => by cases m <;> rfl) hx (fun m hm htype w u hout => ?_) rfl
    cases m with
    | liveRenderPassesResponse rps =>
      cases hout
      simp [Operation.dataOf, hm]
    | _ => cases htype
  | sendDisableTimestamp disable =>
    refine key (fun m c => rfl) hx (fun m hm htype w u hout => ?_) rfl
    cases m with
    | disableTimestampResponse =>
      cases hout
      simp [Operation.dataOf, hm]
    | _ => cases htype
  | pingServer =>
    refine key (fun m c => rfl) hx (fun m hm htype w u hout => ?_) rfl
    cases m with
    | pongMessage =>
      cases hout
      simp [Operation.dataOf, hm]
    | _ => cases htype

/-! ## Runs -/

/-- A call, its result and the client after it. -/
structure Step where
  event : Event
  result : Except Status Value
  after : TcpClient

/-- The calls of a list, on a client. -/
def run : TcpClient → List Event → List Step
  | _, [] => []
  | c, e :: es => ⟨e, (c.handle e).1, (c.handle e).2⟩ :: run (c.handle e).2 es

namespace Event

def isConnect : Event → Bool
  | .connect _ _ => true
  | _ => false

/-- The server announces a file only in answers to downloads. -/
def Orderly : Event → Prop
  | .operation op d => op.isDownload = true ∨ d.answer.file = []
  | _ => True

end Event

namespace Step

/-- An operation that succeeds returns the data of the answer to its own request. -/
def Answered (s : Step) : Prop :=
  ∀ op d v, s.event = .operation op d → s.result = .ok v → op.dataOf d.answer = some v

/-- A call that fails and leaves bytes of its answer unread. -/
def LeftUnread (s : Step) : Prop := (∃ e, s.result = .error e) ∧ s.after.unread ≠ []

/-- An operation that succeeds. -/
def Succeeded (s : Step) : Prop := ∃ op d v, s.event = .operation op d ∧ s.result = .ok v

end Step

namespace TcpClient

/-- A connected client has read all that was sent for earlier requests. -/
def Synced (c : TcpClient) : Prop := c.isConnected = true → c.unread = []

theorem isConnected_deliver (c : TcpClient) (d : Delivery) :
    (c.deliver d).isConnected = c.isConnected := by
  unfold isConnected deliver
  cases c.connection <;> rfl

theorem unread_deliver (h : c.unread = []) (d : Delivery) :
    (c.deliver d).unread <+: d.answer.bytes := by
  unfold unread deliver at *
  cases hs : c.connection with
  | none => exact List.nil_prefix
  | some s =>
    rw [hs] at h
    have h : Source.contentsOf s.incoming.segments = [] := h
    show Source.contentsOf (s.incoming.segments ++ d.segments) <+: _
    rw [Source.contentsOf_append, h]
    exact d.arrived

theorem exchange_not_connected {texts : ExchangeTexts} {request : Message}
    {expected : MessageType} (h : c.isConnected = false) :
    (exchange texts request expected).outcome c =
      (.error ⟨.failedPrecondition, texts.notConnected⟩, c) := by
  rw [exchange, outcome_bind, outcome_get]
  simp [h]

theorem perform_not_connected (op : Operation) (h : c.isConnected = false) :
    ∃ e, op.perform.outcome c = (.error e, c) := by
  cases op <;> exact ⟨_, outcome_bind_error (exchange_not_connected h)⟩

theorem performHandshake_spec (h : c.unread <+: a.bytes)
    (hx : performHandshake.outcome c = (v, c')) {w : Value} (hv : v = .ok w) : c'.Synced := by
  intro hc
  obtain ⟨hunread, hvalue⟩ := exchange_bind_spec (fun m c => by
    cases m with
    | handshakeResponse response =>
      dsimp only
      split_ifs <;> rfl
    | _ => rfl) h hx
  obtain ⟨m, hm, htype, -⟩ := hvalue w hv
  have := hunread hc
  rwa [Answer.file_eq_nil hm (by rw [htype]; decide), List.prefix_nil] at this

theorem connect_synced (answer : ConnectAnswer) (d : Delivery) (h : c.Synced) :
    ((connect answer (({} : SocketConnection).deliver d)).outcome c).2.Synced := by
  unfold connect
  rw [outcome_bind, outcome_get]
  dsimp only
  split_ifs with hstatus
  · exact h
  · cases answer with
    | notCreated status => exact fun hc => by cases hc
    | notConnected status => exact fun hc => by cases hc
    | connected =>
      simp only [stopKeepAlive, resetConnection, setClientStatus, outcome_bind, outcome_modify,
        outcome_attempt]
      obtain ⟨u, hu⟩ : ∃ u : TcpClient, u = { c with
        keepAliveRunning := false
        connection := some (({} : SocketConnection).deliver d)
        status := .connected } := ⟨_, rfl⟩
      rw [← hu]
      rcases hhandshake : performHandshake.outcome u with ⟨e | w, t⟩
      · exact fun hc => by cases hc
      · have hin : u.unread <+: d.answer.bytes := by
          rw [hu]
          exact d.arrived
        have ht : t.Synced := performHandshake_spec hin hhandshake rfl
        simp only [startKeepAlive, outcome_attempt, outcome_bind, outcome_get]
        by_cases hrunning : t.keepAliveRunning = true
        · rw [if_pos hrunning]
          exact ht
        · rw [if_neg hrunning]
          by_cases hconn : (!t.isConnected) = true
          · rw [if_pos hconn]
            exact fun hc => by cases hc
          · rw [if_neg hconn]
            exact ht

/-- **One call** keeps a client in step with its server. -/
theorem handle_spec {e : Event} (h : c.Synced) (he : e.Orderly) : (c.handle e).2.Synced ∧
    (Step.mk e (c.handle e).1 (c.handle e).2).Answered := by
  cases e with
  | connect answer d =>
    refine ⟨connect_synced answer d h, ?_⟩
    rintro op d v ⟨⟩
  | disconnect =>
    refine ⟨(fun hc => by cases hc), ?_⟩
    rintro op d v ⟨⟩
  | keepAliveFailed =>
    refine ⟨(fun hc => by cases hc), ?_⟩
    rintro op d v ⟨⟩
  | operation op d =>
    have hconn := isConnected_deliver c d
    cases hc : c.isConnected with
    | false =>
      obtain ⟨e, hout⟩ := perform_not_connected op (hconn.trans hc)
      have hout : c.handle (.operation op d) = (.error e, c.deliver d) := hout
      rw [hout]
      refine ⟨fun hc' => ?_, ?_⟩
      · rw [hconn.trans hc] at hc'
        cases hc'
      · rintro _ _ v ⟨⟩ ⟨⟩
    | true =>
      obtain ⟨hunread, hvalue⟩ := op.perform_spec (unread_deliver (h hc) d) rfl
      refine ⟨hunread he, ?_⟩
      rintro _ _ v ⟨⟩ hv
      exact hvalue v hv

theorem handle_not_connected {e : Event} (h : c.isConnected = false) (he : e.isConnect = false) :
    (c.handle e).2.isConnected = false ∧
      ¬ (Step.mk e (c.handle e).1 (c.handle e).2).Succeeded := by
  cases e with
  | connect answer d => cases he
  | disconnect =>
    refine ⟨rfl, ?_⟩
    rintro ⟨op, d, v, ⟨⟩, -⟩
  | keepAliveFailed =>
    refine ⟨rfl, ?_⟩
    rintro ⟨op, d, v, ⟨⟩, -⟩
  | operation op d =>
    have hconn := (isConnected_deliver c d).trans h
    obtain ⟨e, hout⟩ := perform_not_connected op hconn
    have hout : c.handle (.operation op d) = (.error e, c.deliver d) := hout
    rw [hout]
    refine ⟨hconn, ?_⟩
    rintro ⟨_, _, v, -, ⟨⟩⟩

end TcpClient

variable {events : List Event}

theorem run_synced (h : c.Synced) (he : ∀ e ∈ events, e.Orderly) :
    ∀ s ∈ run c events, s.Answered ∧ s.after.Synced := by
  induction events generalizing c with
  | nil => simp [run]
  | cons e events ih =>
    obtain ⟨hsynced, hanswered⟩ := TcpClient.handle_spec h (he e List.mem_cons_self)
    intro s hs
    rcases List.mem_cons.mp hs with rfl | hs
    · exact ⟨hanswered, hsynced⟩
    · exact ih hsynced (fun e' he' => he e' (List.mem_cons_of_mem e he')) s hs

theorem run_not_connected (h : c.isConnected = false) :
    ∀ s ∈ (run c events).takeWhile (fun s => !s.event.isConnect), ¬ s.Succeeded := by
  induction events generalizing c with
  | nil => simp [run]
  | cons e events ih =>
    cases hcon : e.isConnect with
    | true => simp [run, hcon]
    | false =>
      obtain ⟨hconn, hfailed⟩ := TcpClient.handle_not_connected h hcon
      intro s hs
      rw [run, List.takeWhile_cons_of_pos (by simp [hcon])] at hs
      rcases List.mem_cons.mp hs with rfl | hs
      · exact hfailed
      · exact ih hconn s hs

theorem run_split {before after : List Step} {s : Step} (h : run c events = before ++ s :: after) :
    ∃ events', after = run s.after events' := by
  induction events generalizing c before with
  | nil => cases before <;> cases h
  | cons e events ih =>
    cases before with
    | nil =>
      rw [run, List.nil_append, List.cons.injEq] at h
      obtain ⟨rfl, rfl⟩ := h
      exact ⟨events, rfl⟩
    | cons t before =>
      rw [run, List.cons_append, List.cons.injEq] at h
      exact ih h.2

/-- **Requests and answers match** in every run of a client, with any failures of the network and
of the local files, if the server announces files only in answers to downloads: an operation that
succeeds returns the data of the answer to its own request, and after a call that leaves bytes
unread no operation succeeds on the connection. Nothing is said of the handshake in `connect`. -/
theorem run_answered (events : List Event) (h : ∀ e ∈ events, e.Orderly) :
    (∀ s ∈ run {} events, s.Answered) ∧
      ∀ before s after, run {} events = before ++ s :: after → s.LeftUnread →
        ∀ t ∈ after.takeWhile (fun t => !t.event.isConnect), ¬ t.Succeeded := by
  have hsynced : ({} : TcpClient).Synced := fun hc => by cases hc
  have hrun := run_synced hsynced h
  refine ⟨fun s hs => (hrun s hs).1, ?_⟩
  rintro before s after heq ⟨-, hunread⟩
  have hs : s ∈ run {} events := by simp [heq]
  obtain ⟨events', rfl⟩ := run_split heq
  refine run_not_connected ?_
  rw [← Bool.not_eq_true]
  exact fun hc => hunread ((hrun s hs).2 hc)

/-- An answer that arrives in one chunk. -/
def Answer.inOneChunk (a : Answer) (b : UInt8) (bs : List UInt8) (h : a.bytes = b :: bs) :
    Delivery where
  answer := a
  segments := [.data b bs]
  arrived := by
    rw [h]
    simp [Source.contentsOf]

/-- The answer of a server to the handshake. -/
def handshakeAnswer : Answer where
  type := 2
  payload := [0, 0, 0, 1, 0, 0, 0, 0]
  file := []
  payload_lt := by decide
  file_announced := by decide

/-- The answer of a server that has found a file of five bytes. -/
def fileSizeAnswer : Answer where
  type := 10
  payload := [1, 0, 0, 0, 0, 0, 0, 0, 0, 0, 0, 0, 5]
  file := []
  payload_lt := by decide
  file_announced := by decide

/-- A client that connects. -/
def connectEvent : Event :=
  .connect .connected (handshakeAnswer.inOneChunk 0 _ rfl)

theorem run_fileSize : (∀ s ∈ run {} [connectEvent, .operation (.getCaptureFileSize [47])
    (fileSizeAnswer.inOneChunk 0 _ rfl)], s.Answered) ∧
      (run {} [connectEvent, .operation (.getCaptureFileSize [47])
        (fileSizeAnswer.inOneChunk 0 _ rfl)]).map (fun s => s.result.toOption) =
          [some .none, some (.size 5)] :=
  ⟨(run_answered [connectEvent, .operation (.getCaptureFileSize [47])
    (fileSizeAnswer.inOneChunk 0 _ rfl)] (by simp [Event.Orderly, connectEvent, fileSizeAnswer,
      Answer.inOneChunk])).1, by rfl⟩

/-- The answer to a download of a file that holds the bytes of a pong. -/
def strayAnswer : Answer where
  type := 8
  payload := [1, 0, 0, 0, 0, 0, 0, 0, 0, 0, 0, 0, 0, 0, 0, 0, 8]
  file := [0, 0, 0, 4, 0, 0, 0, 0]
  payload_lt := by decide
  file_announced := by decide

/-- A server that answers a request for the size of a file with the file. -/
def strayEvents : List Event := [connectEvent,
  .operation (.getCaptureFileSize [47]) (strayAnswer.inOneChunk 0 _ rfl),
  .operation .pingServer { answer := fileSizeAnswer, segments := [], arrived := List.nil_prefix }]

/-- **A stray answer.** The request fails and leaves the file unread; the ping after it takes the
bytes of the file for its answer, which is none, and succeeds. -/
theorem strayAnswer_accepted :
    (run {} strayEvents).map (fun s => (s.result.toOption, s.after.unread)) =
      [(some .none, []), (none, [0, 0, 0, 4, 0, 0, 0, 0]), (some .none, [])] ∧
      Operation.pingServer.dataOf fileSizeAnswer = none := by
  decide

end Dive.Network
