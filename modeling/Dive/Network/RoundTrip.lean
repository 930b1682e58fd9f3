import Dive.Lib.Bytes
import Dive.Network.Socket

/-!
# The messages that are sent are received

* `Reads` facts for the fields and the payloads: **`deserialize_serialize`**.
* `sendMessages`, `receiveMessages`: several messages one after the other.
* **`receiveMessages_sendMessages`**: whatever the parts in which the bytes are sent and received,
  the same messages arrive, and all the bytes are consumed.
-/

namespace Dive.Network

open Fallible Reader

/-! ## Fields -/

@[simp] theorem length_netBytes (w : UInt32) : (netBytes w).length = 4 := rfl

@[simp] theorem netWord_netBytes (w : UInt32) : netWord (netBytes w) = w := by
  have hrev : ∀ a b c d : UInt32, a ||| b ||| c ||| d = d ||| c ||| b ||| a := by
    intro a b c d
    ac_rfl
  exact (hrev _ _ _ _).trans (UInt32.of_bytes w)

theorem reads_bytes {l : List UInt8} {n : ℕ} (h : l.length = n) (error : String) :
    Reads (readBytes n error) l l := by
  subst h
  intro before after
  have hlen : ¬ (before ++ l ++ after).length < before.length + l.length := by
    rw [List.length_append, List.length_append]
    omega
  show (if _ then _ else _) = _
  rw [if_neg hlen, List.append_assoc, List.drop_left, List.take_left]

theorem reads_bool (b : Bool) : Reads readBoolFromBuffer [b.toUInt8] b := by
  have hbit : (([b.toUInt8] : List UInt8) != [0]) = b := by cases b <;> rfl
  have h := (reads_bytes (l := [b.toUInt8]) rfl "Buffer too small to read a bool.").bind_pure
    (f := fun value => value != [0])
  rwa [hbit] at h

theorem reads_uint32 (w : UInt32) : Reads readUint32FromBuffer (netBytes w) w := by
  have h := (reads_bytes (length_netBytes w) "Buffer too small to read an uint32_t.").bind_pure
    (f := netWord)
  rwa [netWord_netBytes] at h

/-- The bytes of a long word. -/
def uint64Bytes (v : UInt64) : List UInt8 :=
  netBytes (v >>> 32).toUInt32 ++ netBytes (v &&& 0xFFFFFFFF).toUInt32

theorem reads_uint64 (v : UInt64) : Reads readUint64FromBuffer (uint64Bytes v) v := by
  have h : Reads readUint64FromBuffer (uint64Bytes v) ((v >>> 32).toUInt32.toUInt64 <<< 32 |||
      (v &&& 0xFFFFFFFF).toUInt32.toUInt64) :=
    (reads_uint32 _).bind (reads_uint32 _).bind_pure
  rwa [UInt64.of_halves] at h

/-- The length of a string and its bytes. -/
def stringBytes (str : List UInt8) : List UInt8 := netBytes (UInt32.ofNat str.length) ++ str

theorem reads_string {str : List UInt8} (h : str.length < 2 ^ 32) :
    Reads readStringFromBuffer (stringBytes str) str := by
  refine (reads_uint32 (UInt32.ofNat str.length)).bind (reads_bytes ?_ _)
  rw [UInt32.toNat_ofNat', Nat.mod_eq_of_lt h]

@[simp] theorem writeBoolToBuffer_eq (b : Bool) (dest : Buffer) :
    writeBoolToBuffer b dest = dest ++ [b.toUInt8] := rfl

@[simp] theorem writeUint32ToBuffer_eq (w : UInt32) (dest : Buffer) :
    writeUint32ToBuffer w dest = dest ++ netBytes w := rfl

@[simp] theorem writeUint64ToBuffer_eq (v : UInt64) (dest : Buffer) :
    writeUint64ToBuffer v dest = dest ++ uint64Bytes v := List.append_assoc _ _ _

@[simp] theorem writeStringToBuffer_eq (str : List UInt8) (dest : Buffer) :
    writeStringToBuffer str dest = dest ++ stringBytes str := List.append_assoc _ _ _

/-! ## Payloads -/

theorem deserializeWith_eq {α : Type} {r : BufferReader α} {src : Buffer} {a : α} {error : String}
    (h : Reads r src a) : deserializeWith r error src = .ok a := by
  unfold deserializeWith
  rw [h.whole]
  simp

@[simp] theorem toNat_kMaxPayloadSize : kMaxPayloadSize.toNat = 16777216 := by decide

theorem HandshakeMessage.reads (m : HandshakeMessage) : Reads fields m.serialize m := by
  exact (reads_uint32 m.majorVersion).bind (reads_uint32 m.minorVersion).bind_pure

theorem RemoveFileResponse.reads (m : RemoveFileResponse)
    (h : m.serialize.length ≤ kMaxPayloadSize.toNat) : Reads fields m.serialize m := by
  simp only [serialize, writeStringToBuffer_eq, writeBoolToBuffer_eq, List.nil_append] at h ⊢
  have hreason : m.errorReason.length < 2 ^ 32 := by
    simp [stringBytes] at h
    omega
  exact (reads_string hreason).bind (reads_bool m.success).bind_pure

theorem DownloadFileResponse.reads (m : DownloadFileResponse)
    (h : m.serialize.length ≤ kMaxPayloadSize.toNat) : Reads fields m.serialize m := by
  simp only [serialize, writeStringToBuffer_eq, writeBoolToBuffer_eq, writeUint64ToBuffer_eq,
    List.nil_append, List.append_assoc] at h ⊢
  have hlen : m.errorReason.length < 2 ^ 32 ∧ m.filePath.length < 2 ^ 32 := by
    simp [stringBytes] at h
    omega
  exact (reads_bool m.found).bind <| (reads_string hlen.1).bind <|
    (reads_string hlen.2).bind (reads_uint64 m.fileSize).bind_pure

theorem FileSizeResponse.reads (m : FileSizeResponse)
    (h : m.serialize.length ≤ kMaxPayloadSize.toNat) : Reads fields m.serialize m := by
  simp only [serialize, writeStringToBuffer_eq, writeBoolToBuffer_eq, writeUint64ToBuffer_eq,
    List.nil_append, List.append_assoc] at h ⊢
  have hlen : m.errorReason.length < 2 ^ 32 := by
    simp [stringBytes] at h
    omega
  exact (reads_bool m.found).bind <| (reads_string hlen).bind (reads_uint64 m.fileSize).bind_pure

theorem DrawcallFilterConfigRequest.reads (m : DrawcallFilterConfigRequest)
    (h : m.serialize.length ≤ kMaxPayloadSize.toNat) : Reads fields m.serialize m := by
  simp only [serialize, writeStringToBuffer_eq, writeBoolToBuffer_eq, writeUint32ToBuffer_eq,
    List.nil_append, List.append_assoc] at h ⊢
  have hlen : m.targetRenderPassName.length < 2 ^ 32 := by
    simp [stringBytes] at h
    omega
  exact (reads_string hlen).bind <| (reads_uint32 m.vertexCount).bind <|
    (reads_uint32 m.indexCount).bind <| (reads_uint32 m.instanceCount).bind <|
    (reads_uint32 m.maxDrawcalls).bind <| (reads_bool m.filterByVertexCount).bind <|
    (reads_bool m.filterByIndexCount).bind <| (reads_bool m.filterByInstanceCount).bind <|
    (reads_bool m.enableDrawcallLimit).bind <| (reads_bool m.filterByAlphaBlended).bind
    (reads_bool m.filterByRenderPass).bind_pure

/-! ### Lists of records -/

section Records

variable {α : Type} {write : Buffer → α → Buffer} {enc : α → List UInt8}

theorem foldl_write (hw : ∀ dest a, write dest a = dest ++ enc a) (dest : Buffer) (l : List α) :
    l.foldl write dest = dest ++ l.flatMap enc := by
  induction l generalizing dest with
  | nil => simp
  | cons a l ih => rw [List.foldl_cons, ih, hw, List.flatMap_cons, List.append_assoc]

theorem length_le_flatMap {l : List α} {a : α} (ha : a ∈ l) :
    (enc a).length ≤ (l.flatMap enc).length := by
  obtain ⟨l₁, l₂, rfl⟩ := List.append_of_mem ha
  simp only [List.flatMap_append, List.flatMap_cons, List.length_append]
  omega

theorem length_le_length_flatMap (h : ∀ a, 0 < (enc a).length) (l : List α) :
    l.length ≤ (l.flatMap enc).length := by
  induction l with
  | nil => exact Nat.zero_le _
  | cons a l ih =>
    have := h a
    rw [List.flatMap_cons, List.length_append, List.length_cons]
    omega

/-- **A counted list of records** is read back, if the records are. -/
theorem reads_records {r : BufferReader α} {l : List α}
    (hw : ∀ dest a, write dest a = dest ++ enc a) (hpos : ∀ a, 0 < (enc a).length)
    (hread : ∀ a, (enc a).length < 2 ^ 32 → Reads r (enc a) a)
    (h : (l.foldl write ([] |> writeUint32ToBuffer (UInt32.ofNat l.length))).length ≤
      kMaxPayloadSize.toNat) :
    Reads (do
      let count ← readUint32FromBuffer
      r.times count.toNat) (l.foldl write ([] |> writeUint32ToBuffer (UInt32.ofNat l.length))) l := by
  rw [foldl_write hw] at h ⊢
  simp only [writeUint32ToBuffer_eq, List.nil_append, List.length_append, length_netBytes,
    toNat_kMaxPayloadSize] at h ⊢
  have hcount := length_le_length_flatMap hpos l
  refine (reads_uint32 _).bind ?_
  rw [UInt32.toNat_ofNat', Nat.mod_eq_of_lt (by omega)]
  refine Reads.times fun a ha => hread a ?_
  have := @length_le_flatMap _ enc l a ha
  omega

end Records

/-- The bytes of a record of `LivePSOsResponse`. -/
def psoBytes (pso : PSOInfo) : List UInt8 :=
  stringBytes pso.name ++ (uint64Bytes pso.pipelineHandle ++ [pso.hasAlphaBlend.toUInt8])

theorem LivePSOsResponse.reads (psos : List PSOInfo)
    (h : (serialize psos).length ≤ kMaxPayloadSize.toNat) :
    Reads fields (serialize psos) psos := by
  refine @reads_records _ _ psoBytes _ _ (fun dest pso => ?_) (fun pso => ?_) (fun pso hlen => ?_) h
  · simp [writePSO, psoBytes]
  · rw [psoBytes, stringBytes, List.append_assoc, List.length_append, length_netBytes]
    omega
  · have hname : pso.name.length < 2 ^ 32 := by
      simp [psoBytes, stringBytes] at hlen
      omega
    exact (reads_string hname).bind <| (reads_uint64 pso.pipelineHandle).bind
      (reads_bool pso.hasAlphaBlend).bind_pure

/-- The bytes of a record of `LiveRenderPassesResponse`. -/
def renderPassBytes (rp : RenderPassInfo) : List UInt8 :=
  stringBytes rp.name ++ uint64Bytes rp.renderPassHandle

theorem LiveRenderPassesResponse.reads (rps : List RenderPassInfo)
    (h : (serialize rps).length ≤ kMaxPayloadSize.toNat) :
    Reads fields (serialize rps) rps := by
  refine @reads_records _ _ renderPassBytes _ _ (fun dest rp => ?_) (fun rp => ?_)
    (fun rp hlen => ?_) h
  · simp [writeRenderPass, renderPassBytes]
  · rw [renderPassBytes, stringBytes, List.append_assoc, List.length_append, length_netBytes]
    omega
  · have hname : rp.name.length < 2 ^ 32 := by
      simp [renderPassBytes, stringBytes] at hlen
      omega
    exact (reads_string hname).bind (reads_uint64 rp.renderPassHandle).bind_pure

theorem StringMessage.reads {str : List UInt8}
    (h : (serialize str).length ≤ kMaxPayloadSize.toNat) :
    Reads readStringFromBuffer (serialize str) str := by
  simp only [serialize, writeStringToBuffer_eq, List.nil_append] at h ⊢
  refine reads_string ?_
  simp [stringBytes] at h
  omega

/-- **A payload within the limit** is read back, for every type of message. -/
theorem Message.deserialize_serialize (m : Message)
    (h : m.serialize.length ≤ kMaxPayloadSize.toNat) :
    deserialize m.serialize m.getMessageType = .ok m := by
  have hmap : ∀ {α : Type} {r : BufferReader α} {src : Buffer} {a : α} (error : String)
      (f : α → Message), Reads r src a → f <$> deserializeWith r error src = .ok (f a) := by
    intro α r src a error f hr
    rw [deserializeWith_eq hr]
    rfl
  cases m with
  | handshakeRequest m => exact hmap _ _ m.reads
  | handshakeResponse m => exact hmap _ _ m.reads
  | pingMessage => rfl
  | pongMessage => rfl
  | pm4CaptureRequest => rfl
  | pm4CaptureResponse str => exact hmap _ _ (StringMessage.reads h)
  | downloadFileRequest str => exact hmap _ _ (StringMessage.reads h)
  | downloadFileResponse m => exact hmap _ _ (m.reads h)
  | fileSizeRequest str => exact hmap _ _ (StringMessage.reads h)
  | fileSizeResponse m => exact hmap _ _ (m.reads h)
  | removeFileRequest str => exact hmap _ _ (StringMessage.reads h)
  | removeFileResponse m => exact hmap _ _ (m.reads h)
  | drawcallFilterConfigRequest m => exact hmap _ _ (m.reads h)
  | drawcallFilterConfigResponse => rfl
  | livePSOsRequest => rfl
  | livePSOsResponse psos => exact hmap _ _ (LivePSOsResponse.reads psos h)
  | liveRenderPassesRequest => rfl
  | liveRenderPassesResponse rps => exact hmap _ _ (LiveRenderPassesResponse.reads rps h)
  | disableTimestampRequest disable => exact hmap _ _ (reads_bool disable)
  | disableTimestampResponse => rfl

/-! ## Messages on a stream -/

/-- The bytes of a message on the stream. -/
def frame (m : Message) : List UInt8 :=
  netBytes m.getMessageType.toUInt32 ++ netBytes (UInt32.ofNat m.serialize.length) ++ m.serialize

/-- Every answer to a `send` takes some bytes. -/
def OnlySent (as : List SendAnswer) : Prop := ∀ a ∈ as, ∃ n, a = .sent n

theorem ofUInt32?_toUInt32 (type : MessageType) :
    MessageType.ofUInt32? type.toUInt32 = some type := by
  cases type <;> decide

variable {c c' : SocketConnection} {m : Message}

theorem send_onlySent (h : c.Ready) (hs : OnlySent c.sendAnswers) (data : List UInt8) :
    ∃ as, OnlySent as ∧ (send data).outcome c =
      (.ok (), { c with outgoing := c.outgoing ++ data, sendAnswers := as }) := by
  rcases send_cases h data with ⟨as, has, hout⟩ | ⟨a, ha, hne, -⟩
  · exact ⟨as, fun a ha => hs a (has a ha), hout⟩
  · obtain ⟨n, rfl⟩ := hs a ha
    exact absurd rfl (hne n)

/-- **Sending** writes the frame of the message, whatever the parts are. -/
theorem sendSocketMessage_onlySent (h : c.Ready) (hs : OnlySent c.sendAnswers)
    (hm : m.serialize.length ≤ kMaxPayloadSize.toNat) :
    ∃ as, OnlySent as ∧ (sendSocketMessage m).outcome c =
      (.ok (), { c with outgoing := c.outgoing ++ frame m, sendAnswers := as }) := by
  obtain ⟨as, has, hheader⟩ := send_onlySent h hs
    (netBytes m.getMessageType.toUInt32 ++ netBytes (UInt32.ofNat m.serialize.length))
  obtain ⟨bs, hbs, hpayload⟩ := @send_onlySent
    { c with outgoing := _, sendAnswers := as } h has m.serialize
  refine ⟨bs, hbs, ?_⟩
  unfold sendSocketMessage
  dsimp only
  rw [if_neg (by omega), outcome_bind_ok hheader, hpayload, frame, List.append_assoc]

/-- **Receiving** a message takes its frame off the stream, whatever the parts are. -/
theorem receiveSocketMessage_frame {after : List UInt8} (h : c.Ready)
    (hm : m.serialize.length ≤ kMaxPayloadSize.toNat)
    (hin : c.incoming.items = frame m ++ after) :
    ∃ r, receiveSocketMessage.outcome c = (.ok m, { c with incoming := r }) ∧ r.items = after ∧
      r.stop = c.incoming.stop := by
  have hlen : UInt32.toNat (UInt32.ofNat m.serialize.length) = m.serialize.length := by
    rw [toNat_kMaxPayloadSize] at hm
    rw [UInt32.toNat_ofNat', Nat.mod_eq_of_lt (by omega)]
  have hheader : (frame m ++ after).take 8 = netBytes m.getMessageType.toUInt32 ++
      netBytes (UInt32.ofNat m.serialize.length) ∧
      (frame m ++ after).drop 8 = m.serialize ++ after := by
    unfold frame
    rw [List.append_assoc _ m.serialize]
    exact ⟨List.take_left' rfl, List.drop_left' rfl⟩
  obtain ⟨r, hr, hitems, hstop⟩ := @receiveBuffer_items c kHeaderSize h (by
    rw [hin, frame]
    simp [kHeaderSize]
    omega)
  have hr : (receiveBuffer kHeaderSize).outcome c = _ := hr
  rw [hin, kHeaderSize, hheader.1] at hr
  rw [hin, kHeaderSize, hheader.2] at hitems
  obtain ⟨r', hr', hitems', hstop'⟩ := @receiveBuffer_items { c with incoming := r }
    m.serialize.length h (by simp [hitems])
  simp only [hitems, List.take_left, List.drop_left] at hr' hitems'
  refine ⟨r', ?_, hitems', hstop'.trans hstop⟩
  unfold receiveSocketMessage
  rw [kHeaderSize, outcome_bind_ok hr]
  have htake : (netBytes m.getMessageType.toUInt32 ++
      netBytes (UInt32.ofNat m.serialize.length)).take 4 =
      netBytes m.getMessageType.toUInt32 := List.take_left' rfl
  have hdrop : (netBytes m.getMessageType.toUInt32 ++
      netBytes (UInt32.ofNat m.serialize.length)).drop 4 =
      netBytes (UInt32.ofNat m.serialize.length) := List.drop_left' rfl
  have hsmall : ¬ UInt32.ofNat m.serialize.length > kMaxPayloadSize := by
    rw [gt_iff_lt, UInt32.lt_iff_toNat_lt, hlen]
    omega
  simp only [htake, hdrop, netWord_netBytes, if_neg hsmall, hlen, outcome_bind_ok hr',
    ofUInt32?_toUInt32, m.deserialize_serialize hm, outcome_pure]

/-- Messages sent one after the other. -/
def sendMessages : List Message → SocketM Unit
  | [] => return ()
  | m :: ms => do
    sendSocketMessage m
    sendMessages ms

/-- As many messages as given, received one after the other. -/
def receiveMessages : ℕ → SocketM (List Message)
  | 0 => return []
  | n + 1 => do
    let m ← receiveSocketMessage
    let ms ← receiveMessages n
    return m :: ms

theorem sendMessages_onlySent {ms : List Message} (h : c.Ready) (hs : OnlySent c.sendAnswers)
    (hm : ∀ m ∈ ms, m.serialize.length ≤ kMaxPayloadSize.toNat) :
    ∃ as, (sendMessages ms).outcome c =
      (.ok (), { c with outgoing := c.outgoing ++ ms.flatMap frame, sendAnswers := as }) := by
  induction ms generalizing c with
  | nil => exact ⟨c.sendAnswers, by simp [sendMessages]⟩
  | cons m ms ih =>
    obtain ⟨as, has, hfirst⟩ := sendSocketMessage_onlySent h hs (hm m List.mem_cons_self)
    obtain ⟨bs, hrest⟩ := @ih { c with outgoing := c.outgoing ++ frame m, sendAnswers := as } h has
      fun m' hm' => hm m' (List.mem_cons_of_mem m hm')
    refine ⟨bs, ?_⟩
    rw [sendMessages, outcome_bind_ok hfirst, hrest, List.flatMap_cons, List.append_assoc]

theorem receiveMessages_frames {ms : List Message} {after : List UInt8} (h : c.Ready)
    (hm : ∀ m ∈ ms, m.serialize.length ≤ kMaxPayloadSize.toNat)
    (hin : c.incoming.items = ms.flatMap frame ++ after) :
    ∃ r, (receiveMessages ms.length).outcome c = (.ok ms, { c with incoming := r }) ∧
      r.items = after ∧ r.stop = c.incoming.stop := by
  induction ms generalizing c with
  | nil => exact ⟨c.incoming, by simpa [receiveMessages] using hin⟩
  | cons m ms ih =>
    rw [List.flatMap_cons, List.append_assoc] at hin
    obtain ⟨r, hfirst, hitems, hstop⟩ :=
      receiveSocketMessage_frame h (hm m List.mem_cons_self) hin
    obtain ⟨r', hrest, hitems', hstop'⟩ := @ih { c with incoming := r } h
      (fun m' hm' => hm m' (List.mem_cons_of_mem m hm')) hitems
    refine ⟨r', ?_, hitems', hstop'.trans hstop⟩
    rw [List.length_cons, receiveMessages, outcome_bind_ok hfirst, outcome_bind_ok hrest]
    rfl

/-- **The round trip.** Messages of any types, with payloads within the limit, are written by any
open connection whose `send` calls take some bytes each, and received from any that hands out the
bytes written, in chunks of any sizes: the same messages, and no byte is left. -/
theorem receiveMessages_sendMessages (ms : List Message) (sender receiver : SocketConnection)
    (hm : ∀ m ∈ ms, m.serialize.length ≤ kMaxPayloadSize.toNat)
    (hs : sender.Ready) (hsent : OnlySent sender.sendAnswers) (hr : receiver.Ready)
    (hin : ((sendMessages ms).outcome sender).2.outgoing =
      sender.outgoing ++ receiver.incoming.items) :
    ((sendMessages ms).outcome sender).1 = .ok () ∧
      ∃ r, (receiveMessages ms.length).outcome receiver =
        (.ok ms, { receiver with incoming := r }) ∧ r.items = [] ∧
          r.stop = receiver.incoming.stop := by
  obtain ⟨as, hsend⟩ := sendMessages_onlySent hs hsent hm
  rw [hsend] at hin ⊢
  have hitems : receiver.incoming.items = ms.flatMap frame ++ [] := by
    rw [List.append_nil]
    exact (List.append_cancel_left hin).symm
  exact ⟨rfl, receiveMessages_frames hr hm hitems⟩

/-- A ping and a request, sent in three parts at first and received in four chunks. -/
theorem receiveMessages_pingAndRequest :
    ∃ r, (receiveMessages 2).outcome { incoming := ⟨[.data 0 [0, 0], .data 3 [0, 0, 0, 0, 0, 0],
        .data 0 [7, 0, 0, 0, 6, 0, 0, 0, 2, 104], .data 105 []], none⟩ } =
      (.ok [.pingMessage, .downloadFileRequest [104, 105]], { incoming := r }) ∧
        r.items = [] ∧ r.stop = none :=
  (receiveMessages_sendMessages [.pingMessage, .downloadFileRequest [104, 105]]
    { sendAnswers := [.sent 0, .sent 2, .sent 4] } { incoming := ⟨[.data 0 [0, 0],
      .data 3 [0, 0, 0, 0, 0, 0], .data 0 [7, 0, 0, 0, 6, 0, 0, 0, 2, 104], .data 105 []], none⟩ }
    (by decide) ⟨rfl, rfl⟩ (by simp [OnlySent]) ⟨rfl, rfl⟩ (by decide)).2

end Dive.Network
