import PicoquicRs.Streams.Pair

/-!
# The context of a connection

The half of `connection.rs` that runs inside the event loop: `connection::Context`,
which owns the contexts of the streams, creates streams – at the request of the
application, or because picoquic calls back for an id it has no context for – and
passes on the end of the connection.

The `streams` map holds a context as long as the stream is not finished. The `Stream`
outlives it in the hands of the application, so the model keeps one
`PicoquicRs.Connections.Entry` for each stream ever created, in the order of
creation, and the map consists of the entries whose context is alive. The order the
map is gone through in does not matter, as two streams share nothing.

Calls into picoquic with the pointer of the connection are recorded in
`PicoquicRs.Connections.Context.calls`, and those a stream makes in its own record. A
panic is the outcome `none`.
-/

namespace PicoquicRs

namespace Connections

open Futures

export Streams (Id SType)

/-- A reference to a `Stream`: its place in the order of creation. -/
abbrev StreamRef := ℕ

/-- A reference to the channel a create request is answered on. -/
abbrev RequestRef := ℕ

/-- `Message` -/
inductive Message where
  | newStream (s : StreamRef)
  | close
  | error (err : Error)
  deriving DecidableEq, Repr

/-- A call into picoquic. -/
inductive Call where
  /-- `picoquic_set_callback`, with `connection_callback`. -/
  | setCallback
  /-- `picoquic_set_callback`, with no callback. -/
  | clearCallback
  /-- `picoquic_close`, with error code `0`. -/
  | close
  /-- `picoquic_get_peer_addr` -/
  | getPeerAddr
  /-- `picoquic_get_local_cnxid` -/
  | getLocalCnxid
  /-- `picoquic_get_local_error` -/
  | getLocalError
  /-- `picoquic_get_remote_error` -/
  | getRemoteError
  deriving DecidableEq, Repr

/-- What picoquic knows about the errors of a connection. -/
structure Codes where
  /-- What `picoquic_get_local_error` returns. -/
  localError : UInt64
  /-- What `picoquic_get_remote_error` returns. -/
  remoteError : UInt64
  /-- What `picoquic_is_handshake_error` says about an error code. -/
  isHandshakeError : UInt16 → Bool

/-- `ffi::Connection::error`, with the calls it makes. -/
def Codes.error (codes : Codes) : Option Error × List Call :=
  let (code, calls) := if codes.localError ≠ 0 then (codes.localError, [Call.getLocalError])
    else (codes.remoteError, [Call.getLocalError, Call.getRemoteError])
  let err : Option Error := if code = 0 then none
    else if codes.isHandshakeError code.toUInt16 then some ErrorKind.tlsHandshakeError
    else some ErrorKind.unknown
  (err, calls)

/-- `ffi::Connection::generate_stream_id`. The arithmetic wraps, as in a release
build. -/
def generateStreamId (nextId : UInt64) (isClient : Bool) (stype : SType) : Id :=
  let id := nextId + 1
  let id := id <<< 2
  let id := if !isClient then id ||| 1 else id
  match stype with
  | .unidirectional => id ||| 2
  | .bidirectional => id

/-- A stream, with its place in the `streams` map while its context is alive. -/
structure Entry where
  /-- The key in the map. -/
  id : Id
  /-- The stream was created at the request of the application. -/
  requested : Bool
  /-- Its two ends. -/
  pair : Streams.Pair
  /-- The events the two ends have seen, oldest first. -/
  seen : List Streams.Event

namespace Entry

variable (en : Entry)

/-- `Stream::new` -/
def new (id : Id) (isClient requested : Bool) : Entry where
  id := id
  requested := requested
  pair := Streams.new id isClient
  seen := []

/-- The stream takes an event. -/
def take (e : Streams.Event) : Option Entry := do
  let pair ← en.pair.step e
  some { en with pair, seen := en.seen ++ [e] }

/-- The context takes an event, if it is in the map and `sel` selects it. -/
def takeInMap (sel : Entry → Bool) (e : Streams.Event) : Option Entry :=
  if en.pair.alive && sel en then en.take e else some en

end Entry

/-- `Context`, with the channels it shares with its `Connection` and with the handles
and futures of the application. -/
structure Context where
  /-- Messages to the `Connection`; the context has the sender. -/
  sendMsg : Chan Message
  /-- Told by `Connection::close_immediately`; the context has the receiver. -/
  closeRecv : Oneshot Unit
  /-- The requests to create a stream, each with the channel for the answer; the
  context has the receiver. -/
  recvCreateStream : ErrorChan (SType × RequestRef)
  /-- The streams, in the order of creation. -/
  streams : List Entry
  /-- The connection was closed. -/
  closed : Bool
  /-- Is the connection initiated by us? -/
  isClient : Bool
  nextStreamId : UInt64
  /-- The `Connection` is held back until the connection is ready. -/
  waitForReadyState : Bool
  /-- Where the `Connection` that is held back goes to. -/
  created : Oneshot (Except Error Unit)
  /-- The channels the requests are answered on. -/
  answers : Store (Oneshot (Except Error StreamRef))
  /-- The calls into picoquic since it was made. -/
  calls : List Call

namespace Context

/-- `Context::new`. An outgoing connection then waits for the ready state; an incoming
one is handed out at once. -/
def new (isClient : Bool) : Context where
  sendMsg := Chan.new
  closeRecv := Oneshot.new
  -- polled once, to register the task
  recvCreateStream := (ErrorChan.new (α := SType × RequestRef)).poll.2
  streams := []
  closed := false
  isClient := isClient
  nextStreamId := 0
  waitForReadyState := isClient
  created := if isClient then Oneshot.new else Oneshot.new.dropSender
  answers := { next := 0, cell := fun _ => Oneshot.new }
  calls := [.setCallback]

variable (c : Context)

/-! ### The streams -/

/-- The map has a context for the id. -/
def hasContext (id : Id) : Bool := c.streams.any fun en => en.pair.alive && en.id == id

/-- Every context in the map that `sel` selects takes an event. -/
def eachContext (sel : Entry → Bool) (e : Streams.Event) : Option Context := do
  let streams ← c.streams.mapM (Entry.takeInMap · sel e)
  some { c with streams }

/-- One stream takes an event. -/
def atStream (k : StreamRef) (e : Streams.Event) : Option Context :=
  match c.streams[k]? with
  | some en => do
    let en ← en.take e
    some { c with streams := c.streams.set k en }
  | none => some c

/-- `Stream::new`, with the context put into the map. -/
def insertStream (id : Id) (requested : Bool) : Context :=
  { c with
    streams := c.streams ++ [Entry.new id c.isClient requested]
    calls := c.calls ++ [.getPeerAddr] }

/-! ### Dropping what holds streams -/

/-- The streams among the messages to a `Connection`. -/
def streamsOf (msgs : List Message) : List StreamRef := msgs.filterMap fun
  | .newStream s => some s
  | _ => none

/-- A `Connection` is dropped: the receiver of the messages, with the streams queued
there, the sender of the close message, and a handle to create streams. -/
def dropConnection : Option Context := do
  let c ← (streamsOf c.sendMsg.queue).foldlM (atStream · · .dropStream) c
  some { c with
    sendMsg := c.sendMsg.dropReceiver
    closeRecv := c.closeRecv.dropSender
    recvCreateStream := c.recvCreateStream.dropSender }

/-- A create request is answered. A stream nobody waits for is dropped. -/
def answer (r : RequestRef) (a : Except Error StreamRef) : Option Context :=
  let waiting := (c.answers.cell r).receiver
  let c := { c with answers := c.answers.modify r (Oneshot.send · a) }
  match a with
  | .ok k => if waiting then some c else c.atStream k .dropStream
  | .error _ => some c

/-! ### Callbacks -/

/-- `Context::handle_stream_callback` -/
def handleStreamCallback (id : Id) (cb : Streams.Callback) : Option Context :=
  if c.hasContext id then c.eachContext (·.id == id) (.callback cb)
  else do
    let stream := c.streams.length
    let c ← (c.insertStream id false).atStream stream (.callback cb)
    match c.sendMsg.unboundedSend (.newStream stream) with
    | some sendMsg => some { c with sendMsg }
    | none => c.atStream stream .dropStream

/-- `Context::process_wait_for_ready_state`. A `Connection` nobody waits for is
dropped. -/
def processWaitForReadyState : Option Context :=
  if c.waitForReadyState then
    let waiting := c.created.receiver
    let c := { c with
      waitForReadyState := false
      created := c.created.send (.ok ())
      calls := c.calls ++ [.getLocalCnxid] }
    if waiting then some c else c.dropConnection
  else none -- "connection can only switches once into `ready` state!"

/-- What a callback of picoquic other than a close reports. -/
inductive Callback where
  /-- The connection is almost ready. -/
  | almostReady
  /-- Any other event, for a stream id. -/
  | stream (id : Id) (cb : Streams.Callback)

/-- `Context::handle_callback` -/
def handleCallback : Callback → Option Context
  | .almostReady => if c.waitForReadyState then c.processWaitForReadyState else some c
  | .stream id cb => if id ≠ 0 then c.handleStreamCallback id cb else some c

/-! ### Requests, close and errors -/

/-- The loop of `Context::check_create_stream_requests`, for at most `fuel` requests. -/
def createLoop : ℕ → Context → Option Context
  | 0, c => some c
  | fuel + 1, c =>
    match c.recvCreateStream.poll with
    | (.ready (some (stype, sender)), recvCreateStream) =>
      let id := generateStreamId c.nextStreamId c.isClient stype
      let c' := { c with recvCreateStream, nextStreamId := c.nextStreamId + 1 }
      if c.hasContext id then none -- the map must not have had a context for the id
      else do
        let c' ← (c'.insertStream id true).answer sender (.ok c.streams.length)
        createLoop fuel c'
    | (_, recvCreateStream) => some { c with recvCreateStream }

/-- `Context::check_create_stream_requests` -/
def checkCreateStreamRequests : Option Context :=
  createLoop (c.recvCreateStream.chan.queue.length + 1) c

/-- `Context::close` -/
def close : Option Context := do
  let c := { c with calls := c.calls ++ [Call.close], closed := true }
  let c ← c.eachContext (fun _ => true) .connectionClose
  match c.sendMsg.unboundedSend .close with
  | some sendMsg => some { c with sendMsg }
  | none => some c

/-- The loop of `Context::check_and_handle_error` over the requests left, for at most
`fuel` requests. -/
def failLoop (err : Error) : ℕ → Context → Option Context
  | 0, c => some c
  | fuel + 1, c =>
    match c.recvCreateStream.poll with
    | (.ready (some (_, sender)), recvCreateStream) => do
      let c ← { c with recvCreateStream }.answer sender (.error err)
      failLoop err fuel c
    | (_, recvCreateStream) => some { c with recvCreateStream }

/-- `Context::check_and_handle_error` -/
def checkAndHandleError (codes : Codes) : Option Context := do
  let (err, calls) := codes.error
  let c := { c with calls := c.calls ++ calls }
  match err with
  | some err =>
    let c ← c.eachContext (fun _ => true) (.connectionError err)
    let c := { c with recvCreateStream := (c.recvCreateStream.propagateError err).close }
    let c ← failLoop err (c.recvCreateStream.chan.queue.length + 1) c
    if c.waitForReadyState then
      -- the `Connection` that was held back is dropped
      let c := { c with waitForReadyState := false, created := c.created.send (.error err) }
      c.dropConnection
    else
      match c.sendMsg.unboundedSend (.error err) with
      | some sendMsg => some { c with sendMsg }
      | none => some c
  | none => some c

/-- The part of `connection_callback` for a close or an application close. -/
def handleClose (codes : Codes) : Option Context := do
  let c ← c.checkAndHandleError codes
  c.close

/-! ### Polling and dropping -/

/-- `<Context as Future>::poll` -/
def poll : Option (Async Unit × Context) :=
  if c.closed then some (.ready (), c)
  else do
    let c ← c.eachContext (fun _ => true) .poll
    let c ← c.checkCreateStreamRequests
    -- check if the connection should be closed
    match c.closeRecv.poll with
    | (.ok (.ready _), closeRecv) => do
      let c ← { c with closeRecv }.close
      some (.notReady, c)
    | (_, closeRecv) => some (.notReady, { c with closeRecv })

/-- `wait_for_ready_state` is dropped, and the `Connection` that was held back. -/
def dropWaitForReadyState : Option Context :=
  let c' := { c with waitForReadyState := false, created := c.created.dropSender }
  if c.waitForReadyState then c'.dropConnection else some c'

/-- `<Context as Drop>::drop`, and the drop of the fields. -/
def drop : Option Context := do
  let c := { c with calls := c.calls ++ [Call.clearCallback] }
  let c ← c.eachContext (fun _ => true) .dropContext
  let c ← c.dropWaitForReadyState
  let answers := c.recvCreateStream.chan.queue.foldl
    (fun h request => Store.modify h request.2 Oneshot.dropSender) c.answers
  some { c with
    sendMsg := c.sendMsg.dropSender
    closeRecv := c.closeRecv.dropReceiver
    recvCreateStream := c.recvCreateStream.dropReceiver
    answers }

end Context

end Connections

end PicoquicRs
