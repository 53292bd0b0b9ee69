import PicoquicRs.Lib.Trace
import PicoquicRs.Streams.Context

/-!
# The two ends of a stream, and their runs

The half of `stream.rs` the application holds, `Stream`, and the machine made of
a `Stream` and its context: `PicoquicRs.Streams.Pair.step` takes one event – a call
of the application, a callback of picoquic, or a call of the event loop – and
`PicoquicRs.Streams.Pair.run` a list of them, in any order.

Beside the two ends, a pair remembers what an observer has seen: the items
`start_send` accepted and the outcomes of `Stream::poll`.
-/

namespace PicoquicRs

namespace Streams

open Futures

/-- `Stream`: what the application holds. Its receiver of messages and its
sender of control messages are the other ends of `Context.recvMsg` and
`Context.controlMsg`. -/
structure Stream where
  /-- The sender of the data to send. -/
  sendData : Option ChanRef
  /-- The id of the stream. -/
  id : Id
  /-- `is_reset`: did this stream receive a reset? -/
  streamReset : Bool
  deriving DecidableEq, Repr

/-- An outcome of `Stream::poll` other than `NotReady`. -/
inductive Outcome where
  /-- `Ready(Some(_))` -/
  | item (d : Bytes)
  /-- `Ready(None)`, with the answer of `is_reset` then. -/
  | none (isReset : Bool)
  /-- An error. -/
  | error (err : Error)
  deriving DecidableEq, Repr

/-- **The two ends of a stream.** -/
structure Pair where
  /-- The application's end, until it is dropped. -/
  stream : Option Stream
  /-- The event loop's end. -/
  ctx : Context
  /-- The event loop's end has not been dropped. -/
  alive : Bool
  /-- The items `start_send` accepted, oldest first. -/
  accepted : List Bytes
  /-- The outcomes of `Stream::poll`, oldest first. -/
  outcomes : List Outcome

/-! ### Creation -/

/-- `create_send_and_recv_data`. Of the pair it makes, both ends are the
reference of the fresh channel. -/
def createSendAndRecvData (id : Id) (clientCon : Bool) (h : Store (ErrorChan Bytes)) :
    Option ChanRef × Store (ErrorChan Bytes) :=
  if isUnidirectional id && !isUnidirectionalSendAllowed id clientCon then (none, h)
  else (some h.next, h.alloc ErrorChan.new)

/-- `Context::new` -/
def Context.new (recvMsg controlMsg : Chan Message) (sendData : Option ChanRef) (id : Id)
    (isClientCon : Bool) (chans : Store (ErrorChan Bytes)) : Context where
  recvMsg := recvMsg
  -- polled once, to register the task
  controlMsg := controlMsg.poll.2
  chans := match sendData with
    | some s => (Context.pollReceiver s chans).2
    | none => chans
  sendData := sendData.map SwappableStream.new
  id := id
  isClientCon := isClientCon
  dataSend := false
  stopSendingOrFinSent := isUnidirectional id && !isUnidirectionalSendAllowed id isClientCon
  finReceivedOrRecvMsgDropped := isUnidirectional id && isUnidirectionalSendAllowed id isClientCon
  activeBuffer := none
  calls := []
  pulls := []

/-- `Stream::new` -/
def new (id : Id) (isClientCon : Bool) : Pair :=
  let (sendData, chans) := createSendAndRecvData id isClientCon
    { next := 0, cell := fun _ => ErrorChan.new }
  { stream := some { sendData, id, streamReset := false }
    ctx := Context.new Chan.new Chan.new sendData id isClientCon chans
    alive := true
    accepted := []
    outcomes := [] }

/-- `Stream::get_type` -/
def Stream.getType (s : Stream) : SType :=
  if isUnidirectional s.id then .unidirectional else .bidirectional

/-! ### The calls of the application -/

namespace Stream

variable (s : Stream)

/-- `Stream::get_send_data` -/
def getSendData : Except Error ChanRef :=
  match s.sendData with
  | some r => .ok r
  | none => .error ErrorKind.sendOnUnidirectional

/-- `<Stream as Sink>::start_send`. Whether the channel has room is up to the
speed of the context. -/
def startSend (c : Context) (item : Bytes) (room : Bool) :
    Except Error (AsyncSink Bytes) × Context :=
  match s.getSendData with
  | .error e => (.error e, c)
  | .ok r =>
    let c' := { c with chans := c.chans.modify r fun ch => (ch.startSend item room).2 }
    match ((c.chans.cell r).startSend item room).1 with
    | .ok a => (.ok a, c')
    | .error (.channel e _) => (.error e, c')
    | .error (.normal item) => (.error (ErrorKind.sendError item), c')

/-- `<Stream as Sink>::poll_complete`. The channel never fails here. -/
def pollComplete (room : Bool) : Except Error (Async Unit) :=
  match s.getSendData with
  | .error e => .error e
  | .ok _ => .ok (if room then .ready () else .notReady)

/-- `Stream::reset`. -/
def reset (c : Context) : Except Error Unit × Context :=
  match c.controlMsg.unboundedSend .reset with
  | some controlMsg => (.ok (), { c with controlMsg })
  | none => (.error ErrorKind.unknown, c)

/-- `Stream::set_send_channel_size`. The size only decides when the fresh channel
has room. -/
def setSendChannelSize (c : Context) : Stream × Context :=
  match s.sendData with
  | some oldSender =>
    let r := c.chans.next
    let c := { c with chans := c.chans.alloc ErrorChan.new }
    let msg := .swapSendData r oldSender
    let c := match c.controlMsg.unboundedSend msg with
      | some controlMsg => { c with controlMsg }
      | none => { c with chans := Context.dropMessage c.chans msg }
    ({ s with sendData := some r }, c)
  | none => (s, c)

/-- `<Stream as FStream>::poll`: the outcome, `none` for `NotReady`. -/
def poll (c : Context) : Option (Option Outcome × Stream × Context) :=
  match c.recvMsg.poll with
  | (.notReady, recvMsg) => some (none, s, { c with recvMsg })
  | (.ready msg, recvMsg) =>
    let c := { c with recvMsg }
    match msg with
    | some .close | none => some (some (.none s.streamReset), s, c)
    | some (.recvData d) => some (some (.item d), s, c)
    | some (.error err) => some (some (.error err), s, c)
    | some .reset => some (some (.none true), { s with streamReset := true }, c)
    | some (.swapSendData ..) => none -- "SwapSendData received!"

/-- The drop of the fields of a `Stream`. -/
def drop (c : Context) : Context :=
  { c with
    recvMsg := c.recvMsg.dropReceiver
    controlMsg := c.controlMsg.dropSender
    chans := match s.sendData with
      | some r => c.chans.modify r ErrorChan.dropSender
      | none => c.chans }

end Stream

/-! ### Steps and runs -/

/-- An event of a run. -/
inductive Event where
  /-- The application calls `start_send`. -/
  | startSend (item : Bytes) (room : Bool)
  /-- The application calls `Stream::set_send_channel_size`. -/
  | setSendChannelSize
  /-- The application calls `Stream::reset`. -/
  | reset
  /-- The application calls `Stream::poll`. -/
  | pollStream
  /-- The application drops the `Stream`. -/
  | dropStream
  /-- picoquic calls back. -/
  | callback (cb : Callback)
  /-- The event loop is in `Context::poll_control_msg`. -/
  | pollControlMsg
  /-- The event loop is in `Context::poll_send_data`. -/
  | pollSendData
  /-- The event loop calls `Context::poll`, and drops the context when it is
  finished. -/
  | poll
  /-- The connection has an error. -/
  | connectionError (err : Error)
  /-- The connection closes. -/
  | connectionClose
  /-- The connection is dropped, and the context with it. -/
  | dropContext

/-- The events that stop the run of one end have no effect once that end is
dropped. -/
def Event.atStream : Event → Bool
  | startSend .. | setSendChannelSize | reset | pollStream | dropStream => true
  | _ => false

namespace Pair

variable (p : Pair)

/-- What an event at the application's end does. -/
def stepStream (s : Stream) : Event → Option Pair
  | .startSend item room =>
    let (r, ctx) := s.startSend p.ctx item room
    let accepted := match r with
      | .ok .ready => p.accepted ++ [item]
      | _ => p.accepted
    some { p with ctx, accepted }
  | .setSendChannelSize =>
    let (s, ctx) := s.setSendChannelSize p.ctx
    some { p with stream := some s, ctx }
  | .reset => some { p with ctx := (Stream.reset p.ctx).2 }
  | .pollStream => do
    let (o, s, ctx) ← s.poll p.ctx
    some { p with stream := some s, ctx, outcomes := p.outcomes ++ o.toList }
  | .dropStream => some { p with stream := none, ctx := s.drop p.ctx }
  | _ => some p

/-- What an event at the event loop's end does. -/
def stepContext : Event → Option Pair
  | .callback cb => do
    let ctx ← p.ctx.handleCallback cb
    some { p with ctx }
  | .pollControlMsg => do
    let (_, ctx) ← p.ctx.pollControlMsg
    some { p with ctx }
  | .pollSendData => some { p with ctx := p.ctx.pollSendData }
  | .poll => do
    match ← p.ctx.poll with
    | (.notReady, ctx) => some { p with ctx }
    | (.ready _, ctx) => some { p with ctx := ctx.drop, alive := false }
  | .connectionError err => some { p with ctx := p.ctx.handleConnectionError err }
  | .connectionClose => some { p with ctx := p.ctx.handleConnectionClose }
  | .dropContext => some { p with ctx := p.ctx.drop, alive := false }
  | _ => some p

/-- **One step.** An event at an end that has been dropped is void. -/
def step (e : Event) : Option Pair :=
  if e.atStream then
    match p.stream with
    | some s => p.stepStream s e
    | none => some p
  else if p.alive then p.stepContext e
  else some p

/-- **A run.** -/
abbrev run : Pair → List Event → Option Pair := Trace.run step

end Pair

end Streams

end PicoquicRs
