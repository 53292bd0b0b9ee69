import PicoquicRs.Connections.Ends
import PicoquicRs.KeepAlive

/-!
# The contexts of all connections

`CContext` of `context_inner.rs` holds the context of every connection that is not
closed yet, and picoquic holds a second reference to it: the argument of
`connection_callback`, made by `Arc::into_raw`. The context is dropped with the last of
the two.

Picoquic is the environment. It makes connections, calls back for them, marks them as
disconnected, and is told to delete them. The model keeps one
`PicoquicRs.Endpoint.Cnx` for each connection that ever got a context, in the order of
creation; the vector of the source consists of those that are marked as listed. A
connection that `new_connection_callback` turns away never gets a context, and is left
out here.

Using a context that was freed is the outcome `none`, as is a panic; among the latter is the
overflow over a keep-alive interval, when a connection is made.
-/

namespace PicoquicRs

namespace Endpoint

open Futures

open Time (Duration)

export Connections (Ends Codes)

/-- A reference to a connection: its place in the order of creation. -/
abbrev CnxRef := ℕ

/-- What picoquic calls back with for a connection. -/
inductive Callback where
  /-- A close or an application close, with what picoquic knows about the errors. -/
  | close (codes : Codes)
  /-- Any other event. -/
  | other (cb : Connections.Context.Callback)

/-- Calls into picoquic with the pointer of one connection. -/
structure Calls where
  /-- Those of its context. -/
  context : List Connections.Call
  /-- Those of its streams, in the order of creation. -/
  streams : List (List Streams.Call)
  deriving DecidableEq, Repr

/-- **A connection**: what the crate has of it, and what picoquic has. -/
structure Cnx where
  /-- Its context, and the application's end. -/
  ends : Ends
  /-- The strong count of the `Arc` around the context. -/
  strong : ℕ
  /-- The context is in `CContext::connections`. -/
  listed : Bool
  /-- How often the reference made by `Arc::into_raw` was given up. -/
  givenUp : ℕ
  /-- `connection_callback` is the callback picoquic has registered. -/
  registered : Bool
  /-- picoquic has the connection in the disconnected state. -/
  disconnected : Bool
  /-- The calls that had been made when picoquic deleted the connection. -/
  deleted : Option Calls

namespace Cnx

variable (c : Cnx)

/-- `Context::new`. One reference is handed to the caller, the other one to picoquic. -/
def new (isClient : Bool) : Cnx where
  ends := Connections.new isClient
  strong := 2
  listed := false
  givenUp := 0
  registered := true
  disconnected := false
  deleted := none

/-- All calls made with the pointer so far. -/
def calls : Calls where
  context := c.ends.ctx.calls
  streams := c.ends.ctx.streams.map fun en => en.pair.ctx.calls

/-- Picoquic still owns its reference. -/
def owned : Bool := c.givenUp == 0

/-- The context was freed. -/
def freed : Bool := !c.ends.alive

/-- An `Arc` is dropped. The last one drops the context, which clears the callback. -/
def release : Option Cnx :=
  if c.strong = 1 then do
    let ends ← c.ends.step .drop
    some { c with ends, strong := 0, registered := false }
  else some { c with strong := c.strong - 1 }

/-- `connection_callback`. The `Arc` made from the raw pointer is forgotten again,
unless the connection closes. -/
def connectionCallback : Callback → Option Cnx
  | .close codes => do
    let ends ← c.ends.step (.close codes)
    let c := { c with ends, givenUp := c.givenUp + 1 }
    c.release
  | .other cb => do
    let ends ← c.ends.step (.callback cb)
    some { c with ends }

/-- The context is put into the vector. -/
def enlist : Cnx := { c with listed := true }

/-- The context is polled, and leaves the vector when it is ready. -/
def retain : Option Cnx :=
  if c.listed then
    if c.freed then none
    else do
      let (a, ctx) ← c.ends.ctx.poll
      let c := { c with ends := { c.ends with ctx } }
      match a with
      | .notReady => some c
      | .ready _ =>
        let c := { c with listed := false }
        c.release
  else some c

/-- What can happen to a connection that has a context. -/
inductive Event where
  /-- `CContext::poll` gets to it. -/
  | retain
  /-- Picoquic calls back. -/
  | callback (cb : Callback)
  /-- Picoquic puts it into the disconnected state. -/
  | disconnect
  /-- `ffi::Connection::delete` -/
  | delete
  /-- An event at the application's end. -/
  | application (e : Connections.Event)

/-- **One step of a connection.** Picoquic does nothing with a connection that was
deleted, and calls back only where a callback is registered. -/
def step : Event → Option Cnx
  | .retain => c.retain
  | .callback cb =>
    if c.registered && c.deleted.isNone then c.connectionCallback cb else some c
  | .disconnect =>
    some (if c.deleted.isNone then { c with disconnected := true } else c)
  | .delete =>
    some (if c.deleted.isNone then { c with deleted := some c.calls } else c)
  | .application e =>
    if Connections.Ends.atContext e then some c
    else do
      let ends ← c.ends.step e
      some { c with ends }

end Cnx

/-- `CContext` -/
structure CContext where
  /-- The build checks its arithmetic. -/
  checks : Bool
  /-- `server_keep_alive_interval` -/
  serverKeepAliveInterval : Option Duration
  /-- All connections that got a context. -/
  cnxs : List Cnx
  /-- `send_con`, with the connections the application has not taken yet. -/
  sendCon : Chan CnxRef

namespace CContext

/-- `CContext::new` -/
def new (checks : Bool) (serverKeepAliveInterval : Option Duration) : CContext where
  checks := checks
  serverKeepAliveInterval := serverKeepAliveInterval
  cnxs := []
  sendCon := Chan.new

variable (c : CContext)

/-- Something happens to one connection. -/
def atCnx (k : CnxRef) (e : Cnx.Event) : Option CContext :=
  match c.cnxs[k]? with
  | some cnx => do
    let cnx ← cnx.step e
    some { c with cnxs := c.cnxs.set k cnx }
  | none => some c

/-- `<CContext as Future>::poll` -/
def poll : Option CContext := do
  let cnxs ← c.cnxs.mapM (Cnx.step · .retain)
  some { c with cnxs }

/-- A context is put into the vector. -/
def push (cnx : Cnx) : CContext := { c with cnxs := c.cnxs ++ [cnx.enlist] }

/-- `new_connection_callback`, for a connection with the given first event. A
`Connection` nobody waits for is dropped. -/
def newConnectionCallback (isGoingToClose : Bool) (cb : Callback) : Option CContext :=
  -- early out, if the connection is already going to be closed
  if isGoingToClose then some c
  else do
    -- the interval is handed to picoquic, and may overflow on the way
    let _ ← createBuilder c.checks c.serverKeepAliveInterval
    let cnx ← (Cnx.new false).connectionCallback cb
    let k := c.cnxs.length
    match c.sendCon.unboundedSend k with
    | some sendCon => some { c.push cnx with sendCon }
    | none => (c.push cnx).atCnx k (.application .dropConnection)

/-- `Connection::create`, for a request that somebody still waits for or not. -/
def create (keepAliveInterval : Option Duration) (waiting : Bool) : Option CContext := do
  let _ ← createBuilder c.checks keepAliveInterval
  let k := c.cnxs.length
  let c := c.push (Cnx.new true)
  if waiting then some c else c.atCnx k (.application .dropCreated)

/-- The application drops the receiver of incoming connections, and those queued. -/
def dropIncoming : Option CContext :=
  c.sendCon.queue.foldlM (atCnx · · (.application .dropConnection))
    { c with sendCon := c.sendCon.dropReceiver }

/-- An event of a run. -/
inductive Event where
  /-- The event loop calls `CContext::poll`. -/
  | poll
  /-- Picoquic calls back for a connection. -/
  | callback (k : CnxRef) (cb : Callback)
  /-- Picoquic has a new connection, and calls back for it. -/
  | incoming (isGoingToClose : Bool) (cb : Callback)
  /-- An outgoing connection is created. -/
  | outgoing (keepAliveInterval : Option Duration) (waiting : Bool)
  /-- Picoquic puts a connection into the disconnected state. -/
  | disconnect (k : CnxRef)
  /-- The event loop deletes a connection. -/
  | delete (k : CnxRef)
  /-- The application polls for an incoming connection. -/
  | accept
  /-- The application drops the receiver of incoming connections. -/
  | dropIncoming
  /-- An event at the application's end of a connection. -/
  | application (k : CnxRef) (e : Connections.Event)

/-- **One step.** The application cannot do anything with a `Connection` it has not
taken yet. -/
def step : Event → Option CContext
  | .poll => c.poll
  | .callback k cb => c.atCnx k (.callback cb)
  | .incoming isGoingToClose cb => c.newConnectionCallback isGoingToClose cb
  | .outgoing keepAliveInterval waiting => c.create keepAliveInterval waiting
  | .disconnect k => c.atCnx k .disconnect
  | .delete k => c.atCnx k .delete
  | .accept => some { c with sendCon := c.sendCon.poll.2 }
  | .dropIncoming => c.dropIncoming
  | .application k e => if k ∈ c.sendCon.queue then some c else c.atCnx k (.application e)

/-- **A run.** -/
abbrev run : CContext → List Event → Option CContext := Trace.run step

end CContext

end Endpoint

end PicoquicRs
