import PicoquicRs.Endpoint.Contexts

/-!
# The event loop

`ContextInner` of `context_inner.rs` drives everything: one iteration of its `poll`
polls the contexts, takes the connect requests, hands the datagrams that came in to
picoquic, and sends what picoquic has to say. One buffer serves the receiving and the
sending, and a datagram the socket has no room for stays in it until the next
iteration.

The loop is a machine with a program counter (`PicoquicRs.Endpoint.Phase`). An event is
one round of one of its inner loops, with the answers of the socket and of picoquic; or
something picoquic does while it is called; or something the application does, at any
time.
-/

namespace PicoquicRs

namespace Endpoint

open Futures

open Time (Duration)

/-! ### What comes from outside -/

/-- `IpAddr` -/
inductive IpAddr where
  | v4 (a : BitVec 32)
  | v6 (a : BitVec 128)
  deriving DecidableEq, Repr

/-- `IpAddr::is_unspecified` -/
def IpAddr.isUnspecified : IpAddr → Bool
  | .v4 a => a == 0
  | .v6 a => a == 0

/-- `SocketAddr` -/
structure SocketAddr where
  ip : IpAddr
  port : UInt16
  deriving DecidableEq, Repr

/-- A datagram for the socket. -/
structure Packet where
  bytes : Bytes
  addr : SocketAddr
  deriving DecidableEq, Repr

/-- What the socket says to a datagram it is handed. -/
inductive SendAnswer where
  | sent
  | error
  | notReady
  deriving DecidableEq, Repr

/-- What the socket says when it is asked for a datagram. The address of the sender
goes to picoquic only. -/
inductive Received where
  | datagram (bytes : Bytes)
  | error
  | notReady

/-- What `picoquic_prepare_packet` returns: the length of the packet with the address
it is for, or an error code. -/
inductive Prepared where
  | ok (sendLen : ℕ) (addr : SocketAddr)
  | error

/-- `ffi::Connection::prepare_packet`; an error is only logged. -/
def Prepared.packet : Prepared → Option (ℕ × SocketAddr)
  | .ok sendLen addr => if 0 < sendLen then some (sendLen, addr) else none
  | .error => none

/-- The next item of `ConnectionIter`. -/
inductive Due where
  /-- No connection is due. -/
  | none
  /-- A connection that has a context. -/
  | cnx (k : CnxRef)
  /-- A connection that was turned away, and whether it is disconnected. -/
  | refused (disconnected : Bool)

/-- `QuicCtx::get_next_wake_up_time`, and what polling the timer says then. -/
inductive NextWake where
  /-- Picoquic wants to be called again instantly. -/
  | none
  | some (timerNotReady : Bool)

/-- A reference to a connect request: its place in the order of the requests. -/
abbrev ConnectRef := ℕ

/-- A connect request: what it asks for, and how it ended. -/
structure ConnectRequest where
  addr : SocketAddr
  serverName : String
  /-- The application still has the `NewConnectionFuture`. -/
  waiting : Bool
  /-- It made a connection, or its sender was dropped. -/
  outcome : Option (Except Unit CnxRef)

/-- `ffi::Connection::new`: whether there is a connection; `created` says if picoquic
makes one. A null byte in the name is an error. -/
def ConnectRequest.connectionNew (r : ConnectRequest) (created : Bool) : Option Bool :=
  if r.addr.ip.isUnspecified then none -- "server address must not be unspecified!"
  else some (!r.serverName.toList.contains (Char.ofNat 0) && created)

/-- What happened to the packets of the connections. -/
inductive Record where
  /-- `prepare_packet` was called. -/
  | prepared (packet : Option Packet)
  /-- A packet was handed to the socket. -/
  | offered (packet : Packet) (answer : SendAnswer)
  deriving DecidableEq, Repr

/-! ### The state -/

/-- Where the loop is. -/
inductive Phase where
  /-- Between two calls of `poll`. -/
  | idle
  /-- At the top of the loop. -/
  | contexts
  /-- In `check_for_new_connection_request`. -/
  | requests
  /-- In `check_for_incoming_data`. -/
  | incoming
  /-- In `picoquic_incoming_packet`, with a datagram of this length. -/
  | incomingPacket (len : ℕ)
  /-- In `send_stateless_packets`. -/
  | stateless
  /-- In `send_connection_packets`, before its loop. -/
  | flush
  /-- In its loop. -/
  | connections
  /-- In `picoquic_prepare_packet`. -/
  | preparePacket
  /-- At the bottom of the loop. -/
  | wake
  /-- The future has ended, and was dropped. -/
  | ended
  deriving DecidableEq, Repr

/-- What an event loop is started with, and how it was built. -/
structure Setup where
  /-- The build checks its arithmetic. -/
  checks : Bool
  config : Config
  /-- `PICOQUIC_MAX_PACKET_SIZE` -/
  maxPacketSize : ℕ

/-- A build that checks, with a configuration in which nothing is set. -/
def Setup.default (maxPacketSize : ℕ) : Setup where
  checks := true
  config := Config.default
  maxPacketSize := maxPacketSize

/-- `ContextInner`, with what it shares with the `Context` of the application. -/
structure ContextInner where
  context : CContext
  /-- `client_keep_alive_interval` -/
  clientKeepAliveInterval : Option Duration
  /-- Temporary buffer used for receiving and sending. -/
  buffer : Bytes
  /-- Data in the buffer that was not sent, because the socket was full. -/
  notSendLength : Option (ℕ × SocketAddr)
  recvConnect : Chan ConnectRef
  /-- The connect requests, oldest first. -/
  requests : List ConnectRequest
  /-- The `Context` of the application has the receiver. -/
  closeHandle : Oneshot Unit
  /-- The stateless packets picoquic has queued. -/
  stateless : List Packet
  phase : Phase
  /-- `loops_without_sleep` -/
  loopsWithoutSleep : ℕ
  /-- The task was notified by the loop itself in this call of `poll`. -/
  notified : Bool
  /-- The last `poll_recv_from` answered `NotReady`. -/
  recvRegistered : Bool
  /-- The last poll of the timer answered `NotReady`. -/
  timerRegistered : Bool
  /-- What happened to the packets of the connections, oldest first. -/
  packets : List Record
  /-- The stateless packets handed to the socket, oldest first. -/
  statelessOffers : List (Packet × SendAnswer)

/-- `max_loops_without_sleep` -/
def maxLoopsWithoutSleep : ℕ := 50

namespace ContextInner

/-- `ContextInner::new` -/
def new (setup : Setup) : ContextInner where
  context := CContext.new setup.checks setup.config.keepAliveIntervals.2
  clientKeepAliveInterval := setup.config.keepAliveIntervals.1
  buffer := List.replicate setup.maxPacketSize 0
  notSendLength := none
  recvConnect := Chan.new
  requests := []
  closeHandle := Oneshot.new
  stateless := []
  phase := .idle
  loopsWithoutSleep := 0
  notified := false
  recvRegistered := false
  timerRegistered := false
  packets := []
  statelessOffers := []

variable (c : ContextInner)

/-- The front of the buffer is written. -/
def writeBuffer (bytes : Bytes) : ContextInner :=
  { c with buffer := bytes ++ c.buffer.drop bytes.length }

/-! ### The loop -/

/-- `ContextInner::context_dropped` -/
def contextDropped : Bool := !c.closeHandle.receiver

/-- The future is dropped, with the requests it did not get to. -/
def drop : ContextInner :=
  { c with
    phase := .ended
    closeHandle := c.closeHandle.send ()
    recvConnect := c.recvConnect.dropReceiver
    requests := c.requests.map fun r => { r with outcome := some (r.outcome.getD (.error ())) } }

/-- The top of the loop. -/
def pollContexts : Option ContextInner := do
  let context ← c.context.poll
  let c := { c with context }
  some (if c.contextDropped then c.drop else { c with phase := .requests })

/-- One round of the loop of `ContextInner::check_for_new_connection_request`. -/
def checkForNewConnectionRequest (created : Bool) : Option ContextInner :=
  match c.recvConnect.poll with
  | (.ready (some r), recvConnect) =>
    match c.requests[r]? with
    | none => some { c with recvConnect }
    | some request =>
      match request.connectionNew created with
      | none => none
      | some false =>
        let request := { request with outcome := some (.error ()) }
        some { c with recvConnect, requests := c.requests.set r request }
      | some true => do
        let request := { request with outcome := some (.ok c.context.cnxs.length) }
        let context ← c.context.step (.outgoing c.clientKeepAliveInterval request.waiting)
        some { c with recvConnect, context, requests := c.requests.set r request }
  | (_, recvConnect) => some { c with recvConnect, phase := .incoming }

/-- One round of the loop of `ContextInner::check_for_incoming_data`. A datagram that
does not fit is cut off. -/
def checkForIncomingData : Received → ContextInner
  | .datagram bytes =>
    let bytes := bytes.take c.buffer.length
    { c.writeBuffer bytes with phase := .incomingPacket bytes.length, recvRegistered := false }
  | .error => { c with phase := .stateless, recvRegistered := false }
  | .notReady => { c with phase := .stateless, recvRegistered := true }

/-- `picoquic_incoming_packet` returns. It works on the datagram in place, and may have
queued stateless packets. -/
def incomingPacketReturns (bytes : Bytes) (stateless : List Packet) : ContextInner :=
  match c.phase with
  | .incomingPacket len =>
    { c.writeBuffer (bytes.take len) with
      phase := .incoming
      stateless := c.stateless ++ stateless }
  | _ => c

/-- One round of the loop of `ContextInner::send_stateless_packets`. The packet is
dropped in any case. -/
def sendStatelessPackets (answer : SendAnswer) : ContextInner :=
  match c.stateless with
  | [] => { c with phase := .flush }
  | packet :: stateless =>
    let c := { c with stateless, statelessOffers := c.statelessOffers ++ [(packet, answer)] }
    match answer with
    | .sent => c
    | _ => { c with phase := .flush }

/-- `ContextInner::send_data_in_buffer`: whether the data could be sent. -/
def sendDataInBuffer (len : ℕ) (addr : SocketAddr) (answer : SendAnswer) :
    Option (Bool × ContextInner) :=
  if len ≤ c.buffer.length then
    let c := { c with packets := c.packets ++ [.offered ⟨c.buffer.take len, addr⟩ answer] }
    match answer with
    | .notReady => some (false, { c with notSendLength := some (len, addr) })
    | _ => some (true, c)
  else none -- range end index out of range

/-- The data could be sent, and the loop of `send_connection_packets` goes on; or the
function returns. -/
def proceed (sent : Bool) : ContextInner :=
  { c with phase := if sent then .connections else .wake }

/-- The first lines of `ContextInner::send_connection_packets`. -/
def flushPending (answer : SendAnswer) : Option ContextInner :=
  match c.notSendLength with
  | some (len, addr) => do
    let c := { c with notSendLength := none }
    let (sent, c) ← c.sendDataInBuffer len addr answer
    some (c.proceed sent)
  | none => some (c.proceed true)

/-- One round of the loop of `ContextInner::send_connection_packets`, up to
`prepare_packet`. -/
def nextConnection : Due → Option ContextInner
  | .none => some { c with phase := .wake }
  | .refused disconnected =>
    some { c with phase := if disconnected then .wake else .preparePacket }
  | .cnx k =>
    match c.context.cnxs[k]? with
    | some cnx =>
      if cnx.deleted.isSome then some c
      else if cnx.disconnected then do
        let context ← c.context.step (.delete k)
        some { c with context, phase := .wake }
      else some { c with phase := .preparePacket }
    | none => some c

/-- The rest of the round. Picoquic has written the front of the buffer. -/
def packetPrepared (bytes : Bytes) (ret : Prepared) (answer : SendAnswer) : Option ContextInner :=
  let c := c.writeBuffer (bytes.take c.buffer.length)
  match ret.packet with
  | some (len, addr) => do
    let packet : Packet := ⟨c.buffer.take len, addr⟩
    let c := { c with packets := c.packets ++ [Record.prepared (some packet)] }
    let (sent, c) ← c.sendDataInBuffer len addr answer
    some (c.proceed sent)
  | none => some { c with packets := c.packets ++ [.prepared none], phase := .connections }

/-- The bottom of the loop: the function returns `NotReady`, or loops. -/
def sleep (nextWake : NextWake) : ContextInner :=
  if maxLoopsWithoutSleep ≤ c.loopsWithoutSleep then { c with phase := .idle, notified := true }
  else
    let loop := { c with phase := .contexts, loopsWithoutSleep := c.loopsWithoutSleep + 1 }
    match nextWake with
    | .none => loop
    | .some false => { loop with timerRegistered := false }
    | .some true => { c with phase := .idle, timerRegistered := true }

/-! ### The application -/

/-- What the application does at its end of the endpoint. -/
inductive Call where
  /-- `NewConnectionHandle::new_connection` -/
  | newConnection (addr : SocketAddr) (serverName : String)
  /-- A `NewConnectionHandle` is cloned. -/
  | cloneHandle
  /-- Such a clone is dropped. -/
  | dropHandle
  /-- A `NewConnectionFuture` is dropped. -/
  | dropFuture (r : ConnectRef)
  /-- `<Context as Stream>::poll` -/
  | pollContext
  /-- The `Context` is dropped. -/
  | dropContext
  /-- An event at a connection. -/
  | connection (k : CnxRef) (e : Connections.Event)

/-- `NewConnectionHandle::new_connection` -/
def newConnection (addr : SocketAddr) (serverName : String) : ContextInner :=
  let (recvConnect, outcome) := match c.recvConnect.unboundedSend c.requests.length with
    | some recvConnect => (recvConnect, none)
    | none => (c.recvConnect, some (Except.error ()))
  { c with
    recvConnect
    requests := c.requests ++ [{ addr, serverName, waiting := true, outcome }] }

/-- What a call of the application does. -/
def stepApplication : Call → Option ContextInner
  | .newConnection addr serverName =>
    some (if 0 < c.recvConnect.senders then c.newConnection addr serverName else c)
  | .cloneHandle =>
    some (if 0 < c.recvConnect.senders then { c with recvConnect := c.recvConnect.cloneSender }
      else c)
  | .dropHandle =>
    some (if c.closeHandle.receiver.toNat < c.recvConnect.senders then
        { c with recvConnect := c.recvConnect.dropSender }
      else c)
  | .dropFuture r =>
    match c.requests[r]? with
    | none => some c
    | some request =>
      let c := { c with requests := c.requests.set r { request with waiting := false } }
      match request.outcome with
      | some (.ok k) => do
        let context ← c.context.step (.application k .dropCreated)
        some { c with context }
      | _ => some c
  | .pollContext =>
    if c.closeHandle.receiver then
      match c.closeHandle.poll with
      | (.ok .notReady, closeHandle) => do
        let context ← c.context.step .accept
        some { c with context, closeHandle }
      | (_, closeHandle) => some { c with closeHandle }
    else some c
  | .dropContext =>
    if c.closeHandle.receiver then do
      let context ← c.context.step .dropIncoming
      some { c with
        context
        closeHandle := c.closeHandle.dropReceiver
        recvConnect := c.recvConnect.dropSender }
    else some c
  | .connection k e => do
    let context ← c.context.step (.application k e)
    some { c with context }

/-! ### Steps and runs -/

/-- What picoquic does while it is called. -/
inductive QuicEvent where
  /-- It calls back for a connection. -/
  | callback (k : CnxRef) (cb : Callback)
  /-- It has a new connection, and calls back for it. -/
  | incoming (isGoingToClose : Bool) (cb : Callback)
  /-- It puts a connection into the disconnected state. -/
  | disconnect (k : CnxRef)

/-- What it does to the contexts. -/
def QuicEvent.toContext : QuicEvent → CContext.Event
  | .callback k cb => .callback k cb
  | .incoming isGoingToClose cb => .incoming isGoingToClose cb
  | .disconnect k => .disconnect k

/-- An event of a run. -/
inductive Event where
  /-- `poll` is called. -/
  | poll
  /-- `ContextInner::poll` polls the contexts, and looks if it should end. -/
  | contexts
  /-- A round of `check_for_new_connection_request`. -/
  | request (created : Bool)
  /-- A round of `check_for_incoming_data`. -/
  | receive (r : Received)
  /-- `picoquic_incoming_packet` returns. -/
  | incomingPacketReturns (bytes : Bytes) (stateless : List Packet)
  /-- A round of `send_stateless_packets`. -/
  | stateless (answer : SendAnswer)
  /-- `send_connection_packets` sends what was not sent before. -/
  | flush (answer : SendAnswer)
  /-- A round of its loop begins. -/
  | due (d : Due)
  /-- `picoquic_prepare_packet` returns. -/
  | packetPrepared (bytes : Bytes) (ret : Prepared) (answer : SendAnswer)
  /-- The bottom of the loop. -/
  | sleep (nextWake : NextWake)
  /-- Picoquic does something. -/
  | quic (e : QuicEvent)
  /-- The application does something. -/
  | application (call : Call)

/-- The event can happen where the loop is. Picoquic acts only while it is called. -/
def Event.possible : Event → Phase → Bool
  | .poll, .idle => true
  | .contexts, .contexts => true
  | .request _, .requests => true
  | .receive _, .incoming => true
  | .incomingPacketReturns _ _, .incomingPacket _ => true
  | .stateless _, .stateless => true
  | .flush _, .flush => true
  | .due _, .connections => true
  | .packetPrepared _ _ _, .preparePacket => true
  | .sleep _, .wake => true
  | .quic _, .incomingPacket _ => true
  | .quic _, .preparePacket => true
  | .application _, _ => true
  | _, _ => false

/-- What an event does where it can happen. -/
def take : Event → Option ContextInner
  | .poll => some { c with phase := .contexts, loopsWithoutSleep := 0, notified := false }
  | .contexts => c.pollContexts
  | .request created => c.checkForNewConnectionRequest created
  | .receive r => some (c.checkForIncomingData r)
  | .incomingPacketReturns bytes stateless => some (c.incomingPacketReturns bytes stateless)
  | .stateless answer => some (c.sendStatelessPackets answer)
  | .flush answer => c.flushPending answer
  | .due d => c.nextConnection d
  | .packetPrepared bytes ret answer => c.packetPrepared bytes ret answer
  | .sleep nextWake => some (c.sleep nextWake)
  | .quic e => do
    let context ← c.context.step e.toContext
    some { c with context }
  | .application call => c.stepApplication call

/-- **One step.** An event that cannot happen where the loop is is void. -/
def step (e : Event) : Option ContextInner := if e.possible c.phase then c.take e else some c

/-- **A run.** -/
abbrev run : ContextInner → List Event → Option ContextInner := Trace.run step

end ContextInner

end Endpoint

end PicoquicRs
