import PicoquicRs.Channel
import PicoquicRs.Lib.Store
import PicoquicRs.SwappableStream

/-!
# The context of a stream

The half of `stream.rs` that runs inside the event loop: `Stream::Context`, which
moves data between picoquic and the channels it shares with the `Stream` the
application holds.

The two sides share three kinds of channels. The message channel (to the
application) and the control channel (from it) live as long as the stream, and
stand in the context as they are; of the channels for the data to send there may
be several, as the application may replace its own, so the context and the
messages hold references (`PicoquicRs.Streams.ChanRef`) into the store
`PicoquicRs.Streams.Context.chans`.

Calls into picoquic are recorded in the order they are made, in
`PicoquicRs.Streams.Context.calls`. A panic is the outcome `none`.
-/

namespace PicoquicRs

namespace Streams

open Futures

/-! ### Stream ids -/

/-- `Id` -/
abbrev Id := UInt64

/-- `Type` -/
inductive SType where
  | unidirectional
  | bidirectional
  deriving DecidableEq, Repr

/-- `is_unidirectional` -/
def isUnidirectional (id : Id) : Bool := id &&& 2 != 0

/-- `is_client_initiated` -/
def isClientInitiated (id : Id) : Bool := id &&& 1 == 0

/-- `is_unidirectional_send_allowed` -/
def isUnidirectionalSendAllowed (id : Id) (isClientCon : Bool) : Bool :=
  if isClientInitiated id then isClientCon else !isClientCon

/-- The stream has a half the local endpoint sends on. -/
def HasSendHalf (id : Id) (isClientCon : Bool) : Prop :=
  isUnidirectional id = false ∨ isUnidirectionalSendAllowed id isClientCon = true

/-- The stream has a half the local endpoint receives on. -/
def HasRecvHalf (id : Id) (isClientCon : Bool) : Prop :=
  isUnidirectional id = false ∨ isUnidirectionalSendAllowed id isClientCon = false

instance (id : Id) (isClientCon : Bool) : Decidable (HasSendHalf id isClientCon) :=
  inferInstanceAs (Decidable (_ ∨ _))

instance (id : Id) (isClientCon : Bool) : Decidable (HasRecvHalf id isClientCon) :=
  inferInstanceAs (Decidable (_ ∨ _))

/-! ### What passes between the parties -/

/-- A reference to a channel for data to send. -/
abbrev ChanRef := ℕ

/-- `Message` -/
inductive Message where
  /-- Close the `Stream`. -/
  | close
  /-- Received data. -/
  | recvData (d : Bytes)
  /-- An error occurred. -/
  | error (err : Error)
  /-- Reset the `Stream`. -/
  | reset
  /-- Swap the receiver of the data to send. The old sender travels along, as it
  must not be dropped before the new receiver is known. -/
  | swapSendData (newReceiver oldSender : ChanRef)
  deriving DecidableEq, Repr

/-- The memory picoquic hands out for stream data: for every length requested,
that many bytes, whatever they are. -/
def DataBuffer : Type := {f : ℕ → Bytes // ∀ n, (f n).length = n}

/-- Memory that is all zero. -/
def zeroed : DataBuffer := ⟨fun n => List.replicate n 0, fun _ => List.length_replicate⟩

/-- What a callback that is not `prepare_to_send` reports beside its payload. -/
inductive StreamEvent where
  | streamReset
  | stopSending
  | streamFin
  /-- Any other event: plain data, a gap and so on. -/
  | other
  deriving DecidableEq, Repr

/-- A callback of picoquic for a stream: the event, with what its pointer and
its length stand for. -/
inductive Callback where
  /-- `prepare_to_send`. The buffer is what `picoquic_provide_stream_data_buffer`
  is going to return, `none` for `NULL`. -/
  | prepareToSend (dest : Option DataBuffer) (maxLength : ℕ)
  /-- Every other event, with the bytes received. -/
  | data (bytes : Bytes) (event : StreamEvent)

/-- A call into picoquic. -/
inductive Call where
  /-- `picoquic_reset_stream`, with error code `0`. -/
  | resetStream (id : Id)
  /-- `picoquic_stop_sending`, with error code `0`. -/
  | stopSending (id : Id)
  /-- `picoquic_mark_active_stream`, which is only ever called to activate. -/
  | markActiveStream (id : Id)
  /-- `picoquic_provide_stream_data_buffer`, with the bytes the buffer was then
  filled with. -/
  | provideStreamDataBuffer (length : ℕ) (fin stillActive : Bool) (data : Bytes)
  deriving DecidableEq, Repr

/-! ### The context -/

/-- `Context`, with the channels it shares with its `Stream`. -/
structure Context where
  /-- Messages to the `Stream`; the context has the sender. -/
  recvMsg : Chan Message
  /-- The receiver of the data to send. -/
  sendData : Option (SwappableStream ChanRef)
  /-- Messages from the `Stream`; the context has the receiver. -/
  controlMsg : Chan Message
  /-- The id of the stream. -/
  id : Id
  /-- Is the connection this stream belongs to a client connection? -/
  isClientCon : Bool
  /-- Did this stream send any data? -/
  dataSend : Bool
  /-- Nothing more is to be sent. -/
  stopSendingOrFinSent : Bool
  /-- Nothing more is to be received. -/
  finReceivedOrRecvMsgDropped : Bool
  /-- The buffer fetched for sending and not sent completely yet. -/
  activeBuffer : Option Bytes
  /-- The channels behind the references. -/
  chans : Store (ErrorChan Bytes)
  /-- The calls into picoquic so far. -/
  calls : List Call
  /-- What polling `sendData` gave so far: the items, and `none` for its end. -/
  pulls : List (Option Bytes)

namespace Context

variable (c : Context)

/-- Polling one receiver of data to send. -/
def pollReceiver (r : ChanRef) (h : Store (ErrorChan Bytes)) :
    Async (Option Bytes) × Store (ErrorChan Bytes) :=
  ((h.cell r).poll.1, h.modify r fun ch => ch.poll.2)

/-- Polling `self.send_data`, recorded in `pulls`. -/
def pull (s : SwappableStream ChanRef) : Async (Option Bytes) × Context :=
  match s.poll pollReceiver c.chans with
  | (r, s, chans) => (r, { c with sendData := some s, chans, pulls := c.pulls ++ r.toList })

/-- A `SwappableStream` of receivers is dropped, and both receivers with it. -/
def dropSwappable (s : SwappableStream ChanRef) (h : Store (ErrorChan Bytes)) :
    Store (ErrorChan Bytes) :=
  let h := h.modify s.activeStream ErrorChan.dropReceiver
  match s.swapTo with
  | some r => h.modify r ErrorChan.dropReceiver
  | none => h

/-- `Context::close_send_data` -/
def closeSendData : Context :=
  match c.sendData with
  | some s =>
    -- the receiver is closed, and dropped at the end of the block
    let chans := c.chans.modify s.activeStream ErrorChan.close
    { c with sendData := none, chans := dropSwappable s chans }
  | none => c

/-- `Context::reset` -/
def reset : Context :=
  let c := { c with stopSendingOrFinSent := true }.closeSendData
  { c with calls := c.calls ++ [.resetStream c.id] }

/-- `Context::recv_message_dropped` -/
def recvMessageDropped : Context :=
  if !c.finReceivedOrRecvMsgDropped then
    let c := { c with finReceivedOrRecvMsgDropped := true }
    if !isUnidirectional c.id || !isUnidirectionalSendAllowed c.id c.isClientCon then
      { c with calls := c.calls ++ [.stopSending c.id] }
    else c
  else c

/-- `Context::recv_message` -/
def recvMessage (msg : Message) : Context :=
  match c.recvMsg.unboundedSend msg with
  | some recvMsg => { c with recvMsg }
  | none => c.recvMessageDropped

/-! ### Sending -/

/-- What collecting the buffers to send gives. -/
structure Collected where
  /-- The context afterwards. -/
  ctx : Context
  /-- The size of all collected buffers. -/
  size : ℕ
  /-- Whether the `fin` bit should be set. -/
  fin : Bool
  /-- The buffers. -/
  buffers : List Bytes

/-- The `while` loop of `Context::collect_buffers_to_send`, for at most `fuel`
rounds. -/
def collectLoop (maxLength : ℕ) : ℕ → Context → ℕ → List Bytes → Collected
  | 0, c, size, buffers => ⟨c, size, false, buffers⟩
  | fuel + 1, c, size, buffers =>
    if size ≤ maxLength then
      match c.sendData with
      | some recv =>
        match c.pull recv with
        | (.ready (some buf), c) =>
          collectLoop maxLength fuel c (size + buf.length) (buffers ++ [buf])
        | (.ready none, c) => ⟨c, size, true, buffers⟩
        | (.notReady, c) => ⟨c, size, false, buffers⟩
      | none => ⟨c, size, true, buffers⟩
    else ⟨c, size, false, buffers⟩

/-- The number of items queued behind `self.send_data`, which bounds the rounds
of the loop: every round but the last takes one. -/
def queued : ℕ :=
  match c.sendData with
  | some s => (c.chans.cell s.activeStream).chan.queue.length +
      (match s.swapTo with
        | some r => (c.chans.cell r).chan.queue.length
        | none => 0)
  | none => 0

/-- `Context::collect_buffers_to_send` -/
def collectBuffersToSend (maxLength : ℕ) : Collected :=
  match c.activeBuffer with
  | some buf =>
    collectLoop maxLength (c.queued + 1) { c with activeBuffer := none } buf.length [buf]
  | none => collectLoop maxLength (c.queued + 1) c 0 []

/-- The loop state of the copying loop in `Context::handle_send_data`. -/
structure Copied where
  /-- The buffer of picoquic. -/
  dest : Bytes
  /-- How much of it is filled. -/
  written : ℕ
  /-- `self.active_buffer` -/
  activeBuffer : Option Bytes

/-- `dest[start..end].copy_from_slice(src)`, which panics on a range outside of
the slice and on two lengths that differ. -/
def copyFromSlice (dest : Bytes) (start stop : ℕ) (src : Bytes) : Option Bytes :=
  if start ≤ stop ∧ stop ≤ dest.length ∧ src.length = stop - start then
    some (dest.take start ++ src ++ dest.drop stop)
  else none

/-- `&buf[0..stop]`, which panics beyond the end. -/
def slicePrefix (buf : Bytes) (stop : ℕ) : Option Bytes :=
  if stop ≤ buf.length then some (buf.take stop) else none

/-- `buf.advance(n)`, which panics beyond the end. -/
def advance (buf : Bytes) (n : ℕ) : Option Bytes :=
  if n ≤ buf.length then some (buf.drop n) else none

/-- The part of the copying loop that fills the buffer: what is left of `buf`. -/
def copyBuffer (length : ℕ) (w : Copied) (buf : Bytes) : Option (Copied × Bytes) :=
  if w.written < length then do
    let stop := min (w.written + buf.length) length
    let bufEnd := stop - w.written
    let dest ← copyFromSlice w.dest w.written stop (← slicePrefix buf bufEnd)
    let buf ← advance buf (stop - w.written)
    some ({ w with dest, written := stop }, buf)
  else some (w, buf)

/-- The body of the copying loop. -/
def sendBuffer (length : ℕ) (w : Copied) (buf : Bytes) : Option Copied := do
  let (w, buf) ← copyBuffer length w buf
  if !buf.isEmpty && w.activeBuffer.isNone then
    some { w with activeBuffer := some buf }
  else if !buf.isEmpty then
    none -- "Active buffer should never be set twice!"
  else
    some w

/-- `Context::handle_send_data`. The call into picoquic is recorded with the
contents the buffer has at the end. -/
def handleSendData (dest : Option DataBuffer) (maxLength : ℕ) : Option Context := do
  let r := c.collectBuffersToSend maxLength
  let c := { r.ctx with dataSend := r.ctx.dataSend || decide (0 < r.size) }
  let stillActive := decide (maxLength < r.size) && !r.fin
  let length := min maxLength r.size
  let dest ← dest -- "Stream data buffer should never be NULL."
  let c := { c with stopSendingOrFinSent := r.fin }
  let w ← r.buffers.foldlM (sendBuffer length)
    { dest := dest.1 length, written := 0, activeBuffer := c.activeBuffer }
  some { c with
    activeBuffer := w.activeBuffer
    calls := c.calls ++ [.provideStreamDataBuffer length r.fin stillActive w.dest] }

/-- `Context::handle_send_data_dropped` -/
def handleSendDataDropped : Context :=
  let chans := match c.sendData with
    | some s => dropSwappable s c.chans
    | none => c.chans
  let c := { c with sendData := none, chans }
  if !c.dataSend && c.activeBuffer.isNone then
    c.reset
  else if !c.stopSendingOrFinSent then
    -- the fin bit is set when picoquic asks for data
    { c with calls := c.calls ++ [.markActiveStream c.id] }
  else c

/-- `Context::poll_send_data` -/
def pollSendData : Context :=
  match c.activeBuffer, c.sendData with
  | none, some recv =>
    match c.pull recv with
    | (.ready (some buf), c) =>
      { c with activeBuffer := some buf, calls := c.calls ++ [.markActiveStream c.id] }
    | (.ready none, c) => c.handleSendDataDropped
    | (.notReady, c) => c
  | _, _ => c

/-! ### Callbacks, control messages and polling -/

/-- `Context::handle_callback` -/
def handleCallback : Callback → Option Context
  | .prepareToSend dest maxLength => c.handleSendData dest maxLength
  | .data bytes event =>
    let c := if !bytes.isEmpty && !c.finReceivedOrRecvMsgDropped then
        c.recvMessage (.recvData bytes)
      else c
    match event with
    | .streamReset => some ({ c with finReceivedOrRecvMsgDropped := true }.recvMessage .reset)
    | .stopSending => some { c with stopSendingOrFinSent := true }.closeSendData
    | .streamFin => some ({ c with finReceivedOrRecvMsgDropped := true }.recvMessage .close)
    | .other => some c

/-- `Context::handle_connection_error` -/
def handleConnectionError (err : Error) : Context :=
  let c := c.recvMessage (.error err)
  match c.sendData with
  | some s =>
    -- through `DerefMut`, hence at the active receiver
    { c with chans := c.chans.modify s.activeStream fun ch => ch.propagateError err }
  | none => c

/-- `Context::handle_connection_close` -/
def handleConnectionClose : Context := c.recvMessage .close

/-- The arms of `Context::poll_control_msg` that go on with the loop. -/
def handleControlMsg : Message → Option Context
  | .reset => some c.reset
  | .swapSendData newReceiver oldSender =>
    let c := match c.sendData with
      | some s =>
        -- a receiver that was waiting in the slot is dropped
        let chans := match s.swapTo with
          | some r => c.chans.modify r ErrorChan.dropReceiver
          | none => c.chans
        { c with sendData := some (s.setSwapTo newReceiver), chans }
      | none => { c with chans := c.chans.modify newReceiver ErrorChan.dropReceiver }
    some { c with chans := c.chans.modify oldSender ErrorChan.dropSender }
  | _ => none -- "Stream context unknown `Message`"

/-- The loop of `Context::poll_control_msg`, for at most `fuel` messages. -/
def controlLoop : ℕ → Context → Option (Async Unit × Context)
  | 0, c => some (.notReady, c)
  | fuel + 1, c =>
    match c.controlMsg.poll with
    | (.notReady, controlMsg) => some (.notReady, { c with controlMsg })
    | (.ready none, controlMsg) => some (.ready (), { c with controlMsg }.recvMessageDropped)
    | (.ready (some msg), controlMsg) => do
      let c ← { c with controlMsg }.handleControlMsg msg
      controlLoop fuel c

/-- `Context::poll_control_msg` -/
def pollControlMsg : Option (Async Unit × Context) :=
  controlLoop (c.controlMsg.queue.length + 1) c

/-- `<Context as Future>::poll` -/
def poll : Option (Async Unit × Context) := do
  let (_, c) ← c.pollControlMsg
  let c := c.pollSendData
  if c.stopSendingOrFinSent && c.finReceivedOrRecvMsgDropped then
    some (.ready (), c)
  else
    some (.notReady, c)

/-- A message is dropped, and the ends of channels it carries with it. -/
def dropMessage (h : Store (ErrorChan Bytes)) : Message → Store (ErrorChan Bytes)
  | .swapSendData newReceiver oldSender =>
    (h.modify newReceiver ErrorChan.dropReceiver).modify oldSender ErrorChan.dropSender
  | _ => h

/-- `<Context as Drop>::drop`, and the drop of the fields. -/
def drop : Context :=
  let c := match c.recvMsg.unboundedSend .close with
    | some recvMsg => { c with recvMsg }
    | none => c
  let c := c.closeSendData
  { c with
    recvMsg := c.recvMsg.dropSender
    chans := c.controlMsg.queue.foldl dropMessage c.chans
    controlMsg := c.controlMsg.dropReceiver }

end Context

end Streams

end PicoquicRs
