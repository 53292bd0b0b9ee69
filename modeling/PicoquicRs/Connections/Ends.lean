import PicoquicRs.Connections.Context
import PicoquicRs.Lib.Trace

/-!
# The two ends of a connection, and their runs

The half of `connection.rs` the application holds – the `Connection`, the handles to
create streams and the futures of what was asked for – and the machine made of both
ends: `PicoquicRs.Connections.Ends.step` takes one event, and
`PicoquicRs.Connections.Ends.run` a list of them, in any order. The events at a
`Stream` are events of the connection it belongs to.
-/

namespace PicoquicRs

namespace Connections

open Futures

/-- An outcome of `Connection::poll` other than `NotReady`. -/
inductive Outcome where
  /-- `Ready(Some(_))` -/
  | stream (s : StreamRef)
  /-- `Ready(None)` -/
  | none
  /-- An error. -/
  | error (err : Error)
  deriving DecidableEq, Repr

/-- **The two ends of a connection.** -/
structure Ends where
  /-- The event loop's end. -/
  ctx : Context
  /-- The event loop's end has not been dropped. -/
  alive : Bool
  /-- The application has the `Connection`, and the handle in it. -/
  connection : Bool
  /-- How many other handles to create streams the application has. -/
  handles : ℕ
  /-- The outcomes of `Connection::poll`, oldest first. -/
  outcomes : List Outcome
  /-- The outcomes of waiting for the `Connection`. -/
  opened : List (Except Error Unit)
  /-- The outcomes of the create requests, oldest first. -/
  resolved : List (RequestRef × Except Error StreamRef)

/-- A connection right after `Context::new`. -/
def new (isClient : Bool) : Ends where
  ctx := Context.new isClient
  alive := true
  connection := !isClient
  handles := 0
  outcomes := []
  opened := []
  resolved := []

/-! ### The calls of the application -/

namespace Context

variable (c : Context)

/-- `NewStreamHandle::new_stream_handle` -/
def newStreamHandle (stype : SType) : Context :=
  let send := c.answers.next
  let c := { c with answers := c.answers.alloc Oneshot.new }
  match c.recvCreateStream.startSend (stype, send) true with
  | (.ok _, recvCreateStream) => { c with recvCreateStream }
  | (.error (.channel e _), recvCreateStream) =>
    { c with recvCreateStream, answers := c.answers.modify send (Oneshot.send · (.error e)) }
  | (.error (.normal _), recvCreateStream) =>
    { c with
      recvCreateStream
      answers := c.answers.modify send (Oneshot.send · (.error ErrorKind.unknown)) }

/-- `<NewStreamFuture as Future>::poll`: the outcome, `none` for `NotReady`. -/
def pollRequest (r : RequestRef) : Option (Except Error StreamRef) × Context :=
  let (a, o) := (c.answers.cell r).poll
  let c := { c with answers := c.answers.modify r fun _ => o }
  match a with
  | .ok (.ready a) => (some a, c)
  | .ok .notReady => (none, c)
  | .error _ => (some (.error ErrorKind.unknown), c)

/-- A `NewStreamFuture` is dropped, and the stream in it. -/
def dropRequest (r : RequestRef) : Option Context :=
  let c' := { c with answers := c.answers.modify r Oneshot.dropReceiver }
  match (c.answers.cell r).value with
  | some (.ok k) => c'.atStream k .dropStream
  | _ => some c'

/-- `<NewConnectionFuture as Future>::poll`: the outcome, `none` for `NotReady`. -/
def pollCreated : Option (Except Error Unit) × Context :=
  let (a, created) := c.created.poll
  let c := { c with created }
  match a with
  | .ok (.ready a) => (some a, c)
  | .ok .notReady => (none, c)
  | .error _ => (some (.error ErrorKind.internalError), c)

/-- A `NewConnectionFuture` is dropped, and the `Connection` in it. -/
def dropCreated : Option Context :=
  let c' := { c with created := c.created.dropReceiver }
  match c.created.value with
  | some (.ok ()) => c'.dropConnection
  | _ => some c'

/-- `<Connection as FStream>::poll`: the outcome, `none` for `NotReady`. -/
def pollConnection : Option Outcome × Context :=
  match c.sendMsg.poll with
  | (.notReady, sendMsg) => (none, { c with sendMsg })
  | (.ready msg, sendMsg) =>
    let c := { c with sendMsg }
    match msg with
    | some .close | none => (some .none, c)
    | some (.newStream s) => (some (.stream s), c)
    | some (.error err) => (some (.error err), c)

/-- `Connection::close_immediately`, which consumes the `Connection`. -/
def closeImmediately : Option Context :=
  { c with closeRecv := c.closeRecv.send () }.dropConnection

end Context

/-! ### Steps and runs -/

/-- An event of a run. -/
inductive Event where
  /-- The application asks for a new stream. -/
  | newStream (stype : SType)
  /-- The application clones a handle to create streams. -/
  | cloneHandle
  /-- The application drops such a clone. -/
  | dropHandle
  /-- The application polls what it got for a create request. -/
  | pollRequest (r : RequestRef)
  /-- The application drops it. -/
  | dropRequest (r : RequestRef)
  /-- The application polls what it got for its connect request. -/
  | pollCreated
  /-- The application drops it. -/
  | dropCreated
  /-- The application calls `Connection::poll`. -/
  | pollConnection
  /-- The application drops the `Connection`. -/
  | dropConnection
  /-- The application calls `Connection::close_immediately`. -/
  | closeImmediately
  /-- An event at the `Stream` of a stream. -/
  | stream (k : StreamRef) (e : Streams.Event)
  /-- picoquic calls back. -/
  | callback (cb : Context.Callback)
  /-- picoquic calls back, and the connection is closed. -/
  | close (codes : Codes)
  /-- The event loop calls `Context::poll`. -/
  | poll
  /-- The event loop drops the context. -/
  | drop

/-- The event loop drops the context. -/
def Event.isDrop : Event → Bool
  | .drop => true
  | _ => false

namespace Ends

variable (p : Ends)

/-- What an event at the application's end does. -/
def stepApplication : Event → Option Ends
  | .newStream stype =>
    if p.connection || decide (0 < p.handles) then
      some { p with ctx := p.ctx.newStreamHandle stype }
    else some p
  | .cloneHandle =>
    if p.connection || decide (0 < p.handles) then
      let recvCreateStream := { p.ctx.recvCreateStream with
        chan := p.ctx.recvCreateStream.chan.cloneSender }
      some { p with ctx := { p.ctx with recvCreateStream }, handles := p.handles + 1 }
    else some p
  | .dropHandle =>
    if 0 < p.handles then
      let recvCreateStream := p.ctx.recvCreateStream.dropSender
      some { p with ctx := { p.ctx with recvCreateStream }, handles := p.handles - 1 }
    else some p
  | .pollRequest r =>
    let (a, ctx) := p.ctx.pollRequest r
    some { p with ctx, resolved := p.resolved ++ (a.map fun a => (r, a)).toList }
  | .dropRequest r => do
    let ctx ← p.ctx.dropRequest r
    some { p with ctx }
  | .pollCreated =>
    let (a, ctx) := p.ctx.pollCreated
    let connection := match a with
      | some (.ok ()) => true
      | _ => p.connection
    some { p with ctx, connection, opened := p.opened ++ a.toList }
  | .dropCreated => do
    let ctx ← p.ctx.dropCreated
    some { p with ctx }
  | .pollConnection =>
    if p.connection then
      let (o, ctx) := p.ctx.pollConnection
      some { p with ctx, outcomes := p.outcomes ++ o.toList }
    else some p
  | .dropConnection =>
    if p.connection then do
      let ctx ← p.ctx.dropConnection
      some { p with ctx, connection := false }
    else some p
  | .closeImmediately =>
    if p.connection then do
      let ctx ← p.ctx.closeImmediately
      some { p with ctx, connection := false }
    else some p
  | .stream k e =>
    if e.atStream then do
      let ctx ← p.ctx.atStream k e
      some { p with ctx }
    else some p
  | _ => some p

/-- What an event at the event loop's end does. -/
def stepContext : Event → Option Ends
  | .callback cb => do
    let ctx ← p.ctx.handleCallback cb
    some { p with ctx }
  | .close codes => do
    let ctx ← p.ctx.handleClose codes
    some { p with ctx }
  | .poll => do
    let (_, ctx) ← p.ctx.poll
    some { p with ctx }
  | .drop => do
    let ctx ← p.ctx.drop
    some { p with ctx, alive := false }
  | _ => some p

/-- The event is at the event loop's end. -/
def atContext : Event → Bool
  | .callback _ | .close _ | .poll | .drop => true
  | _ => false

/-- **One step.** An event at a context that has been dropped is void. -/
def step (e : Event) : Option Ends :=
  if atContext e then
    if p.alive then p.stepContext e else some p
  else p.stepApplication e

/-- **A run.** -/
abbrev run : Ends → List Event → Option Ends := Trace.run step

end Ends

end Connections

end PicoquicRs
