import Dive.Lib.Fallible
import Dive.Lib.Source
import Dive.Network.Messages

/-!
# Sockets and framed messages

* `SocketConnection`: one end of a connection, by what the operating system does with it: the
  answers of its `send` calls, and a source of incoming bytes with short reads and failures.
* `send`, `recv`, `receiveBuffer`: the loops over partial sends and receives.
* `sendSocketMessage`, `receiveSocketMessage`: a header of two words, and the payload.
* **`send_spec`**, **`recv_ok`**, **`recv_items`**: what the loops do to the bytes, whatever the
  parts are.
-/

namespace Dive.Network

/-- What a `send` call does. -/
inductive SendAnswer
  /-- It takes up to `n + 1` bytes. -/
  | sent (n : ℕ)
  | zero
  | wouldBlock
  | reset
  | failed (strerror : String)
  deriving DecidableEq

/-- How the wait for input or the `recv` call behind it fails. -/
inductive RecvFailure
  | pollFailed (strerror : String)
  | timeout
  | errorEvent
  | wouldBlock
  | reset
  | failed (strerror : String)
  deriving DecidableEq

/-- `SocketConnection`. A failure of the source `incoming` is named by a number, and stands for the
failure that `recvFailure` gives; its end is the peer's. The answers of `send` follow
`sendAnswers`; after these it takes all it gets. -/
structure SocketConnection where
  isOpen : Bool := true
  isListening : Bool := false
  outgoing : List UInt8 := []
  sendAnswers : List SendAnswer := []
  incoming : Source UInt8 := ⟨[], none⟩
  recvFailure : ℕ → RecvFailure := fun _ => .timeout

/-- Code of one end of a connection. -/
abbrev SocketM : Type → Type := Fallible SocketConnection Status

/-- `Close`. -/
def close : SocketM Unit := modify fun c => { c with isOpen := false, isListening := false }

/-- The next answer to a `send` of `size` bytes. -/
def nextSendAnswer (size : ℕ) : SocketM SendAnswer := modifyGet fun c =>
  match c.sendAnswers with
  | [] => (.sent size, c)
  | a :: as => (a, { c with sendAnswers := as })

/-- The loop of `Send`, over the bytes that are left. Every pass that goes on takes one at least. -/
def sendLoop : ℕ → List UInt8 → SocketM Unit
  | 0, _ => return ()
  | fuel + 1, data =>
    if data = [] then return ()
    else do
      match ← nextSendAnswer data.length with
      | .sent n =>
        modify fun c => { c with outgoing := c.outgoing ++ data.take (n + 1) }
        sendLoop fuel (data.drop (n + 1))
      | .wouldBlock => throw ⟨.unavailable, "Send: Operation would block."⟩
      | .reset =>
        close
        throw ⟨.aborted, "Send: Connection reset by peer (EPIPE/ECONNRESET)."⟩
      | .failed strerror => throw ⟨.internal, "Send: send() failed: " ++ strerror⟩
      | .zero => throw ⟨.aborted, "Send: Peer has closed the connection."⟩

/-- `Send`. -/
def send (data : List UInt8) : SocketM Unit := do
  let c ← get
  if !c.isOpen || c.isListening then
    throw ⟨.failedPrecondition,
      "Send: Socket is invalid or operation not supported on a listening socket."⟩
  else sendLoop data.length data

/-- One call for up to `size` bytes. -/
def pull (size : ℕ) : SocketM (Transfer UInt8) := modifyGet fun c =>
  (c.incoming.pull size, { c with incoming := (c.incoming.pull size).rest })

/-- The exit of `Recv` for a failure. -/
def throwRecvFailure : RecvFailure → SocketM (List UInt8)
  | .pollFailed strerror => throw ⟨.internal, "Recv: poll() failed: " ++ strerror⟩
  | .timeout => throw ⟨.deadlineExceeded, "Recv: Timeout waiting for data."⟩
  | .errorEvent => throw ⟨.internal, "Recv: poll() returned an error event on the socket."⟩
  | .wouldBlock => throw ⟨.unavailable, "Recv: Operation would block."⟩
  | .reset => do
    close
    throw ⟨.aborted, "Recv: Connection reset by peer."⟩
  | .failed strerror => throw ⟨.internal, "Recv: recv() system call failed: " ++ strerror⟩

/-- The number of the failure that a call of the source returned. -/
def failureCode (returned : ℤ) : ℕ := (-1 - returned).toNat

/-- The loop of `Recv`, with `size` bytes left to receive. -/
def recvLoop : ℕ → ℕ → List UInt8 → SocketM (List UInt8)
  | 0, _, data => return data
  | fuel + 1, size, data =>
    if size = 0 then return data
    else do
      let received ← pull size
      let c ← get
      if received.returned < 0 then throwRecvFailure (c.recvFailure (failureCode received.returned))
      else if received.returned = 0 then
        throw ⟨.outOfRange, "Recv: Connection gracefully closed by peer."⟩
      else recvLoop fuel (size - received.returned.toNat) (data ++ received.items)

/-- `Recv`. -/
def recv (size : ℕ) : SocketM (List UInt8) := do
  let c ← get
  if !c.isOpen || c.isListening then
    throw ⟨.failedPrecondition,
      "Recv: Socket is invalid or operation not supported on a listening socket."⟩
  else recvLoop size size []

/-- The loop of `ReceiveBuffer`. -/
def receiveBufferLoop : ℕ → ℕ → List UInt8 → SocketM (List UInt8)
  | 0, _, buffer => return buffer
  | fuel + 1, size, buffer =>
    if size = 0 then return buffer
    else do
      let received ← recv size
      receiveBufferLoop fuel (size - received.length) (buffer ++ received)

/-- `ReceiveBuffer`. -/
def receiveBuffer (size : ℕ) : SocketM (List UInt8) := receiveBufferLoop size size []

def kMaxPayloadSize : UInt32 := 16 * 1024 * 1024

def kHeaderSize : ℕ := 8

/-- `ReceiveSocketMessage`. -/
def receiveSocketMessage : SocketM Message := do
  let header ← receiveBuffer kHeaderSize
  let type := netWord (header.take 4)
  let payloadLength := netWord (header.drop 4)
  if payloadLength > kMaxPayloadSize then
    close
    throw ⟨.invalidArgument, "Payload size " ++ toString payloadLength.toNat ++ " exceeds limit."⟩
  else
    let payload ← receiveBuffer payloadLength.toNat
    match MessageType.ofUInt32? type with
    | none =>
      close
      throw ⟨.invalidArgument, "Unknown message type: " ++ toString type.toNat⟩
    | some messageType =>
      match Message.deserialize payload messageType with
      | .error status =>
        close
        throw status
      | .ok message => return message

/-- `SendSocketMessage`. -/
def sendSocketMessage (message : Message) : SocketM Unit := do
  let payload := message.serialize
  if payload.length > kMaxPayloadSize.toNat then
    throw ⟨.invalidArgument, "Serialized payload size exceeds limit."⟩
  else
    send (netBytes message.getMessageType.toUInt32 ++ netBytes (UInt32.ofNat payload.length))
    send payload

/-! ## What the loops do -/

open Fallible

/-- An open connection to a peer. -/
def SocketConnection.Ready (c : SocketConnection) : Prop := c.isOpen = true ∧ c.isListening = false

variable {c c' : SocketConnection} {data d : List UInt8} {size fuel : ℕ}

theorem sendLoop_cases (hf : data.length ≤ fuel) :
    (∃ as, (∀ a ∈ as, a ∈ c.sendAnswers) ∧ (sendLoop fuel data).outcome c =
        (.ok (), { c with outgoing := c.outgoing ++ data, sendAnswers := as })) ∨
      ∃ a ∈ c.sendAnswers, (∀ n, a ≠ .sent n) ∧ ∃ e c', (sendLoop fuel data).outcome c =
        (.error e, c') ∧ (a = .reset → c'.isOpen = false) := by
  induction fuel generalizing c data with
  | zero =>
    obtain rfl : data = [] := List.eq_nil_of_length_eq_zero (by omega)
    exact Or.inl ⟨c.sendAnswers, fun a ha => ha, by simp [sendLoop]⟩
  | succ fuel ih =>
    by_cases hnil : data = []
    · subst hnil
      exact Or.inl ⟨c.sendAnswers, fun a ha => ha, by simp [sendLoop]⟩
    · have hpos : 0 < data.length := List.length_pos_of_ne_nil hnil
      rw [sendLoop, if_neg hnil]
      cases has : c.sendAnswers with
      | nil =>
        have hfirst : (nextSendAnswer data.length).outcome c = (.ok (.sent data.length), c) := by
          simp [nextSendAnswer, has]
        rw [outcome_bind_ok hfirst]
        have hrest : (sendLoop fuel (data.drop (data.length + 1))).outcome
            { c with outgoing := c.outgoing ++ data.take (data.length + 1) } =
            (.ok (), { c with outgoing := c.outgoing ++ data }) := by
          rw [List.drop_eq_nil_of_le (by omega), List.take_of_length_le (by omega)]
          cases fuel <;> simp [sendLoop]
        refine Or.inl ⟨[], by simp, ?_⟩
        simp only [outcome_bind, outcome_modify, hrest]
        rw [← has]
      | cons a as =>
        have hfirst : (nextSendAnswer data.length).outcome c =
            (.ok a, { c with sendAnswers := as }) := by
          simp [nextSendAnswer, has]
        rw [outcome_bind_ok hfirst]
        cases a with
        | sent n =>
          simp only [outcome_bind, outcome_modify]
          have hlen : (data.drop (n + 1)).length ≤ fuel := by
            rw [List.length_drop]
            omega
          rcases @ih { c with
            outgoing := c.outgoing ++ data.take (n + 1), sendAnswers := as } _ hlen with
            ⟨bs, hbs, hout⟩ | ⟨b, hb, hne, hout⟩
          · refine Or.inl ⟨bs, fun b hb => List.mem_cons_of_mem _ (hbs b hb), ?_⟩
            rw [hout]
            simp
          · exact Or.inr ⟨b, List.mem_cons_of_mem _ hb, hne, hout⟩
        | zero => exact Or.inr ⟨_, List.mem_cons_self, by simp, _, _, rfl, by simp⟩
        | wouldBlock => exact Or.inr ⟨_, List.mem_cons_self, by simp, _, _, rfl, by simp⟩
        | reset => exact Or.inr ⟨_, List.mem_cons_self, by simp, _, _, rfl, fun _ => rfl⟩
        | failed e => exact Or.inr ⟨_, List.mem_cons_self, by simp, _, _, rfl, by simp⟩

theorem send_eq (h : c.Ready) : (send data).outcome c = (sendLoop data.length data).outcome c := by
  simp [send, outcome_bind, h.1, h.2]

/-- **`Send`** gets all the bytes out, or stops at an answer that takes none. -/
theorem send_cases (h : c.Ready) (data : List UInt8) :
    (∃ as, (∀ a ∈ as, a ∈ c.sendAnswers) ∧ (send data).outcome c =
        (.ok (), { c with outgoing := c.outgoing ++ data, sendAnswers := as })) ∨
      ∃ a ∈ c.sendAnswers, (∀ n, a ≠ .sent n) ∧ ∃ e c', (send data).outcome c =
        (.error e, c') ∧ (a = .reset → c'.isOpen = false) := by
  rw [send_eq h]
  exact sendLoop_cases (le_refl _)

theorem not_ready_iff : ¬ c.Ready ↔ (!c.isOpen || c.isListening) = true := by
  unfold SocketConnection.Ready
  cases c.isOpen <;> cases c.isListening <;> decide

theorem send_not_ready (h : ¬ c.Ready) : ∃ e, (send data).outcome c = (.error e, c) := by
  rw [send, outcome_bind, outcome_get]
  dsimp only
  rw [if_pos (not_ready_iff.mp h)]
  exact ⟨_, rfl⟩

/-- **`Send`, when it succeeds,** got all the bytes out. -/
theorem send_ok {u : Unit} (h : (send data).outcome c = (.ok u, c')) :
    c.Ready ∧ ∃ as, (∀ a ∈ as, a ∈ c.sendAnswers) ∧
      c' = { c with outgoing := c.outgoing ++ data, sendAnswers := as } := by
  by_cases hready : c.Ready
  · rcases send_cases hready data with ⟨as, has, hout⟩ | ⟨a, -, -, e, c'', hout, -⟩
    · rw [hout] at h
      cases h
      exact ⟨hready, as, has, rfl⟩
    · rw [hout] at h
      cases h
  · obtain ⟨e, he⟩ := @send_not_ready c data hready
    rw [he] at h
    cases h

theorem throwRecvFailure_outcome (f : RecvFailure) :
    ∃ e c', (throwRecvFailure f).outcome c = (.error e, c') := by
  cases f <;> exact ⟨_, _, rfl⟩

theorem recvLoop_succ (hs : 0 < size) : (recvLoop (fuel + 1) size data).outcome c =
    if (c.incoming.pull size).returned < 0 then
      (throwRecvFailure (c.recvFailure (failureCode (c.incoming.pull size).returned))).outcome
        { c with incoming := (c.incoming.pull size).rest }
    else if (c.incoming.pull size).returned = 0 then
      (.error ⟨.outOfRange, "Recv: Connection gracefully closed by peer."⟩,
        { c with incoming := (c.incoming.pull size).rest })
    else (recvLoop fuel (size - (c.incoming.pull size).returned.toNat)
      (data ++ (c.incoming.pull size).items)).outcome
        { c with incoming := (c.incoming.pull size).rest } := by
  rw [recvLoop, if_neg hs.ne']
  simp only [pull, outcome_bind, outcome_modifyGet, outcome_get]
  split_ifs <;> rfl

theorem recvLoop_zero : (recvLoop fuel 0 data).outcome c = (.ok data, c) := by
  cases fuel <;> rfl

/-- **A loop of `recv` calls that succeeds** took what it was asked for off the incoming bytes. -/
theorem recvLoop_ok (hf : size ≤ fuel) (h : (recvLoop fuel size data).outcome c = (.ok d, c')) :
    ∃ got r, d = data ++ got ∧ got.length = size ∧ c' = { c with incoming := r } ∧
      c.incoming.contents = got ++ r.contents := by
  induction fuel generalizing c size data with
  | zero =>
    obtain rfl : size = 0 := by omega
    cases h
    exact ⟨[], c'.incoming, by simp⟩
  | succ fuel ih =>
    by_cases hs : 0 < size
    · rw [recvLoop_succ hs] at h
      obtain ⟨hcontents, hle, hret⟩ := @Source.contents_pull _ c.incoming size
      split_ifs at h with hneg hzero
      · obtain ⟨e, u, hthrow⟩ := @throwRecvFailure_outcome
          { c with incoming := (c.incoming.pull size).rest }
          (c.recvFailure (failureCode (c.incoming.pull size).returned))
        rw [hthrow] at h
        cases h
      · cases h
      · have hlen := hret (by omega)
        obtain ⟨got, r, rfl, hgot, rfl, hr⟩ := ih (by omega) h
        refine ⟨(c.incoming.pull size).items ++ got, r, ?_, ?_, rfl, ?_⟩
        · rw [List.append_assoc]
        · rw [List.length_append, hgot]
          omega
        · rw [hcontents, List.append_assoc]
          exact congrArg _ hr
    · obtain rfl : size = 0 := by omega
      rw [recvLoop_zero] at h
      cases h
      exact ⟨[], c'.incoming, by simp⟩

/-- **A loop of `recv` calls succeeds** if there are enough bytes before the next failure. -/
theorem recvLoop_items (hf : size ≤ fuel) (h : size ≤ c.incoming.items.length) :
    ∃ r, (recvLoop fuel size data).outcome c =
        (.ok (data ++ c.incoming.items.take size), { c with incoming := r }) ∧
      r.items = c.incoming.items.drop size ∧ r.stop = c.incoming.stop := by
  induction fuel generalizing c size data with
  | zero =>
    obtain rfl : size = 0 := by omega
    exact ⟨c.incoming, by simp [recvLoop]⟩
  | succ fuel ih =>
    by_cases hs : 0 < size
    · have hne : c.incoming.items ≠ [] := by
        intro hnil
        rw [hnil, List.length_nil] at h
        omega
      obtain ⟨k, hk, hkn, hkl, hret, hitems, hrest, hstop, -⟩ := Source.pull_of_items_ne_nil hne hs
      rw [recvLoop_succ hs, hret, if_neg (by omega), if_neg (by omega), Int.toNat_natCast, hitems]
      obtain ⟨r, hr, hi, hst⟩ := @ih { c with incoming := (c.incoming.pull size).rest }
        (data ++ c.incoming.items.take k) (size - k) (by omega) (by
          show size - k ≤ (c.incoming.pull size).rest.items.length
          rw [hrest, List.length_drop]
          omega)
      refine ⟨r, ?_, ?_, hst.trans hstop⟩
      · rw [hr]
        simp only [hrest]
        rw [List.append_assoc, ← List.take_add, Nat.add_sub_cancel' hkn]
      · rw [hi]
        simp only [hrest]
        rw [List.drop_drop, Nat.add_sub_cancel' hkn]
    · obtain rfl : size = 0 := by omega
      exact ⟨c.incoming, by simp [recvLoop_zero]⟩

theorem recv_eq (h : c.Ready) : (recv size).outcome c = (recvLoop size size []).outcome c := by
  simp [recv, outcome_bind, h.1, h.2]

theorem recv_not_ready (h : ¬ c.Ready) : ∃ e, (recv size).outcome c = (.error e, c) := by
  rw [recv, outcome_bind, outcome_get]
  dsimp only
  rw [if_pos (not_ready_iff.mp h)]
  exact ⟨_, rfl⟩

/-- **`Recv`, when it succeeds,** took what it was asked for off the incoming bytes. -/
theorem recv_ok (h : (recv size).outcome c = (.ok d, c')) : d.length = size ∧
    ∃ r, c' = { c with incoming := r } ∧ c.incoming.contents = d ++ r.contents := by
  by_cases hready : c.Ready
  · rw [recv_eq hready] at h
    obtain ⟨got, r, rfl, hlen, rfl, hr⟩ := recvLoop_ok (le_refl _) h
    exact ⟨hlen, r, rfl, hr⟩
  · obtain ⟨e, he⟩ := @recv_not_ready c size hready
    rw [he] at h
    cases h

theorem receiveBufferLoop_zero : (receiveBufferLoop fuel 0 data).outcome c = (.ok data, c) := by
  cases fuel <;> rfl

/-- **`ReceiveBuffer`, when it succeeds,** took what it was asked for off the incoming bytes. -/
theorem receiveBuffer_ok (h : (receiveBuffer size).outcome c = (.ok d, c')) :
    d.length = size ∧ ∃ r, c' = { c with incoming := r } ∧
      c.incoming.contents = d ++ r.contents := by
  cases size with
  | zero =>
    cases h
    exact ⟨rfl, c.incoming, rfl, rfl⟩
  | succ n =>
    rw [receiveBuffer, receiveBufferLoop, if_neg (Nat.succ_ne_zero n)] at h
    obtain ⟨got, u, hrecv, hloop⟩ := outcome_bind_eq_ok.mp h
    obtain ⟨hlen, r, rfl, hr⟩ := recv_ok hrecv
    rw [List.nil_append, hlen, Nat.sub_self, receiveBufferLoop_zero] at hloop
    cases hloop
    exact ⟨hlen, r, rfl, hr⟩

/-- **`ReceiveBuffer` succeeds** if there are enough bytes before the next failure. -/
theorem receiveBuffer_items (hready : c.Ready) (h : size ≤ c.incoming.items.length) :
    ∃ r, (receiveBuffer size).outcome c =
        (.ok (c.incoming.items.take size), { c with incoming := r }) ∧
      r.items = c.incoming.items.drop size ∧ r.stop = c.incoming.stop := by
  cases size with
  | zero => exact ⟨c.incoming, rfl, rfl, rfl⟩
  | succ n =>
    obtain ⟨r, hr, hitems, hstop⟩ := @recvLoop_items c [] (n + 1) (n + 1) (le_refl _) h
    refine ⟨r, ?_, hitems, hstop⟩
    rw [← recv_eq hready, List.nil_append] at hr
    rw [receiveBuffer, receiveBufferLoop, if_neg (Nat.succ_ne_zero n), outcome_bind_ok hr,
      List.length_take, min_eq_left h, Nat.sub_self, receiveBufferLoop_zero]
    rfl

/-- **A message that is received** took its header and its payload off the incoming bytes. -/
theorem receiveSocketMessage_ok {m : Message} (h : receiveSocketMessage.outcome c = (.ok m, c')) :
    ∃ header payload type r, header.length = kHeaderSize ∧
      payload.length = (netWord (header.drop 4)).toNat ∧
      MessageType.ofUInt32? (netWord (header.take 4)) = some type ∧
      Message.deserialize payload type = .ok m ∧ c' = { c with incoming := r } ∧
      c.incoming.contents = header ++ (payload ++ r.contents) := by
  unfold receiveSocketMessage at h
  obtain ⟨header, u, hheader, h⟩ := outcome_bind_eq_ok.mp h
  obtain ⟨hlen, r, rfl, hr⟩ := receiveBuffer_ok hheader
  dsimp only at h
  split_ifs at h
  · obtain ⟨-, -, -, h⟩ := outcome_bind_eq_ok.mp h
    cases h
  · obtain ⟨payload, u, hpayload, h⟩ := outcome_bind_eq_ok.mp h
    obtain ⟨hlen', r', rfl, hr'⟩ := receiveBuffer_ok hpayload
    cases htype : MessageType.ofUInt32? (netWord (header.take 4)) with
    | none =>
      rw [htype] at h
      cases h
    | some type =>
      rw [htype] at h
      cases hdes : Message.deserialize payload type with
      | error e =>
        simp only [hdes] at h
        cases h
      | ok m' =>
        simp only [hdes] at h
        cases h
        exact ⟨header, payload, type, r', hlen, hlen', htype, hdes, rfl, by rw [hr, hr']⟩

end Dive.Network
