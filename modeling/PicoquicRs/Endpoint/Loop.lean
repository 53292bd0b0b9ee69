import PicoquicRs.Endpoint.Inner

/-!
# What the steps of the event loop leave alone

Two things are shared by the steps of the loop: the buffer, with what is known about the
datagram in it, and the contexts. Most steps do not use the buffer
(`PicoquicRs.Endpoint.ContextInner.Unused`). What a step does to the contexts is nothing,
or one step of `PicoquicRs.Endpoint.CContext`; only a round of
`send_connection_packets` deletes a connection
(`PicoquicRs.Endpoint.ContextInner.step_context`).
-/

namespace PicoquicRs

namespace Endpoint

open Futures

/-- The step deletes a connection. -/
def CContext.Event.isDelete : CContext.Event → Bool
  | .delete _ => true
  | _ => false

/-- The step makes an outgoing connection. -/
def CContext.Event.isOutgoing : CContext.Event → Bool
  | .outgoing _ _ => true
  | _ => false

/-- The step is one of the application. -/
def CContext.Event.isApplication : CContext.Event → Bool
  | .accept | .dropIncoming | .application _ _ => true
  | _ => false

/-- A connect request, whoever waits for it. -/
def ConnectRequest.apart (r : ConnectRequest) : ConnectRequest :=
  { r with waiting := true }

namespace ContextInner

variable {c c' : ContextInner}

/-- **The buffer is not used.** -/
structure Unused (c c' : ContextInner) : Prop where
  buffer : c'.buffer = c.buffer
  notSendLength : c'.notSendLength = c.notSendLength
  packets : c'.packets = c.packets

/-- **The contexts take a step that deletes nothing**, or none. -/
def Steps (c c' : CContext) : Prop := c' = c ∨ ∃ e, e.isDelete = false ∧ c.step e = some c'

/-- **The contexts take a step** that makes no outgoing connection and deletes nothing, or
none. -/
def Acts (c c' : CContext) : Prop :=
  c' = c ∨ ∃ e, e.isDelete = false ∧ e.isOutgoing = false ∧ c.step e = some c'

theorem Acts.steps {c c' : CContext} (h : Acts c c') : Steps c c' :=
  h.imp_right fun ⟨e, hdelete, _, hstep⟩ => ⟨e, hdelete, hstep⟩

/-- **The contexts take a step of the application**, or none. -/
def Serves (c c' : CContext) : Prop :=
  c' = c ∨ ∃ e, e.isApplication = true ∧ c.step e = some c'

theorem Serves.acts {c c' : CContext} (h : Serves c c') : Acts c c' := by
  refine h.imp_right fun ⟨e, happ, hstep⟩ => ⟨e, ?_, ?_, hstep⟩
  · cases e <;> first | rfl | exact absurd happ Bool.false_ne_true
  · cases e <;> first | rfl | exact absurd happ Bool.false_ne_true

/-! ### Where an event can happen -/

/-- The one place of the loop where an event can happen, if there is only one. -/
def Event.place : Event → Option Phase
  | .poll => some .idle
  | .contexts => some .contexts
  | .request _ => some .requests
  | .receive _ => some .incoming
  | .stateless _ => some .stateless
  | .flush _ => some .flush
  | .due _ => some .connections
  | .packetPrepared _ _ _ => some .preparePacket
  | .sleep _ => some .wake
  | .incomingPacketReturns _ _ | .quic _ | .application _ => none

theorem phase_of_possible {e : Event} {p q : Phase} (h : e.possible p = true)
    (hq : e.place = some q) : p = q := by
  cases e <;> cases hq <;> cases p <;> first | rfl | exact absurd h Bool.false_ne_true

/-- `picoquic_incoming_packet` returns where it was called. -/
theorem incomingPacket_of_possible {bytes : Bytes} {stateless : List Packet} {p : Phase}
    (h : Event.possible (.incomingPacketReturns bytes stateless) p = true) :
    ∃ len, p = .incomingPacket len := by
  cases p <;> first | exact ⟨_, rfl⟩ | exact absurd h Bool.false_ne_true

/-! ### The functions -/

/-- A request is answered, and the connection it asks for may be made. -/
theorem checkForNewConnectionRequest_frame {created : Bool}
    (h : c.checkForNewConnectionRequest created = some c') :
    ∃ context requests phase,
      c' = { c with recvConnect := c.recvConnect.poll.2, context, requests, phase } ∧
        (phase = c.phase ∨ c.recvConnect.queue = [] ∧ phase = .incoming) ∧
        (context = c.context ∨ ∃ waiting,
          c.context.step (.outgoing c.clientKeepAliveInterval waiting) = some context) := by
  rw [checkForNewConnectionRequest] at h
  cases hq : c.recvConnect.queue with
  | nil =>
    cases he : c.recvConnect.isEnded with
    | true =>
      rw [Chan.poll_of_ended hq he] at h ⊢
      exact ⟨_, _, _, (Option.some.inj h).symm, Or.inr ⟨rfl, rfl⟩, Or.inl rfl⟩
    | false =>
      rw [Chan.poll_of_waiting hq he] at h ⊢
      exact ⟨_, _, _, (Option.some.inj h).symm, Or.inr ⟨rfl, rfl⟩, Or.inl rfl⟩
  | cons r q =>
    rw [Chan.poll_of_cons hq] at h ⊢
    simp only at h
    split at h
    · exact ⟨_, _, _, (Option.some.inj h).symm, Or.inl rfl, Or.inl rfl⟩
    · split at h
      · simp at h
      · exact ⟨_, _, _, (Option.some.inj h).symm, Or.inl rfl, Or.inl rfl⟩
      · obtain ⟨context, hcontext, h⟩ := Option.bind_eq_some_iff.mp h
        exact ⟨_, _, _, (Option.some.inj h).symm, Or.inl rfl, Or.inr ⟨_, hcontext⟩⟩

/-- The requests do not go through the buffer. -/
theorem checkForNewConnectionRequest_spec {created : Bool}
    (h : c.checkForNewConnectionRequest created = some c') :
    Unused c c' ∧ (c'.phase = c.phase ∨ c'.phase = .incoming) ∧ (c'.context = c.context ∨
      ∃ waiting,
        c.context.step (.outgoing c.clientKeepAliveInterval waiting) = some c'.context) := by
  obtain ⟨context, requests, phase, rfl, hphase, hcontext⟩ := checkForNewConnectionRequest_frame h
  exact ⟨⟨rfl, rfl, rfl⟩, hphase.imp_right And.right, hcontext⟩

/-- **A round takes a request off the queue**, if one is there. -/
theorem checkForNewConnectionRequest_takes {created : Bool} {r : ConnectRef} {q : List ConnectRef}
    (hq : c.recvConnect.queue = r :: q) (h : c.checkForNewConnectionRequest created = some c') :
    c'.recvConnect.queue = q ∧ c'.phase = c.phase ∧ c'.stateless = c.stateless ∧
      c'.loopsWithoutSleep = c.loopsWithoutSleep := by
  obtain ⟨context, requests, phase, rfl, hphase, -⟩ := checkForNewConnectionRequest_frame h
  rcases hphase with rfl | ⟨hnil, -⟩
  · exact ⟨by rw [Chan.poll_of_cons hq], rfl, rfl, rfl⟩
  · rw [hq] at hnil
    simp at hnil

/-- Else the loop goes on to the socket. -/
theorem checkForNewConnectionRequest_nil (hq : c.recvConnect.queue = []) (created : Bool) :
    c.checkForNewConnectionRequest created =
      some { c with recvConnect := c.recvConnect.poll.2, phase := .incoming } := by
  cases he : c.recvConnect.isEnded with
  | true => rw [checkForNewConnectionRequest, Chan.poll_of_ended hq he]
  | false => rw [checkForNewConnectionRequest, Chan.poll_of_waiting hq he]

/-- The future of a request is dropped. -/
theorem requests_set_apart {r : ConnectRef} {request : ConnectRequest}
    (hr : c.requests[r]? = some request) (request' : ConnectRequest)
    (ha : request'.apart = request.apart) :
    (c.requests.set r request').map ConnectRequest.apart =
      c.requests.map ConnectRequest.apart := by
  obtain ⟨hlt, rfl⟩ := List.getElem?_eq_some_iff.mp hr
  have hlen : r < (c.requests.map ConnectRequest.apart).length := by rwa [List.length_map]
  refine Eq.trans ?_ (List.set_getElem_self hlen)
  rw [List.map_set, ha, List.getElem_map]

/-- **What the application does**: it asks for a connection, or it uses what it holds. -/
theorem stepApplication_cases {call : Call} (h : c.stepApplication call = some c') :
    (∃ addr serverName, call = .newConnection addr serverName ∧ 0 < c.recvConnect.senders ∧
      c' = c.newConnection addr serverName) ∨
    ∃ context closeHandle requests recvConnect,
      c' = { c with context, closeHandle, requests, recvConnect } ∧ Serves c.context context ∧
      requests.map ConnectRequest.apart = c.requests.map ConnectRequest.apart ∧
      (recvConnect = c.recvConnect ∨ recvConnect = c.recvConnect.dropSender ∨
        0 < c.recvConnect.senders ∧ recvConnect = c.recvConnect.cloneSender) := by
  cases call with
  | newConnection addr serverName =>
    simp only [stepApplication] at h
    split at h
    · exact Or.inl ⟨addr, serverName, rfl, ‹_›, (Option.some.inj h).symm⟩
    · exact Or.inr ⟨_, _, _, _, (Option.some.inj h).symm, Or.inl rfl, rfl, Or.inl rfl⟩
  | cloneHandle =>
    simp only [stepApplication] at h
    split at h
    · exact Or.inr ⟨_, _, _, _, (Option.some.inj h).symm, Or.inl rfl, rfl,
        Or.inr (Or.inr ⟨‹_›, rfl⟩)⟩
    · exact Or.inr ⟨_, _, _, _, (Option.some.inj h).symm, Or.inl rfl, rfl, Or.inl rfl⟩
  | dropHandle =>
    simp only [stepApplication] at h
    split at h
    · exact Or.inr ⟨_, _, _, _, (Option.some.inj h).symm, Or.inl rfl, rfl, Or.inr (Or.inl rfl)⟩
    · exact Or.inr ⟨_, _, _, _, (Option.some.inj h).symm, Or.inl rfl, rfl, Or.inl rfl⟩
  | dropFuture r =>
    simp only [stepApplication] at h
    split at h
    · exact Or.inr ⟨_, _, _, _, (Option.some.inj h).symm, Or.inl rfl, rfl, Or.inl rfl⟩
    · rename_i request hr
      have ha := requests_set_apart hr { request with waiting := false } rfl
      split at h
      · obtain ⟨context, hcontext, h⟩ := Option.bind_eq_some_iff.mp h
        exact Or.inr ⟨_, _, _, _, (Option.some.inj h).symm, Or.inr ⟨_, rfl, hcontext⟩, ha,
          Or.inl rfl⟩
      · exact Or.inr ⟨_, _, _, _, (Option.some.inj h).symm, Or.inl rfl, ha, Or.inl rfl⟩
  | pollContext =>
    simp only [stepApplication] at h
    split at h
    · split at h
      · obtain ⟨context, hcontext, h⟩ := Option.bind_eq_some_iff.mp h
        exact Or.inr ⟨_, _, _, _, (Option.some.inj h).symm, Or.inr ⟨_, rfl, hcontext⟩, rfl,
          Or.inl rfl⟩
      · exact Or.inr ⟨_, _, _, _, (Option.some.inj h).symm, Or.inl rfl, rfl, Or.inl rfl⟩
    · exact Or.inr ⟨_, _, _, _, (Option.some.inj h).symm, Or.inl rfl, rfl, Or.inl rfl⟩
  | dropContext =>
    simp only [stepApplication] at h
    split at h
    · obtain ⟨context, hcontext, h⟩ := Option.bind_eq_some_iff.mp h
      exact Or.inr ⟨_, _, _, _, (Option.some.inj h).symm, Or.inr ⟨_, rfl, hcontext⟩, rfl,
        Or.inr (Or.inl rfl)⟩
    · exact Or.inr ⟨_, _, _, _, (Option.some.inj h).symm, Or.inl rfl, rfl, Or.inl rfl⟩
  | connection k e =>
    obtain ⟨context, hcontext, h⟩ := Option.bind_eq_some_iff.mp h
    exact Or.inr ⟨_, _, _, _, (Option.some.inj h).symm, Or.inr ⟨_, rfl, hcontext⟩, rfl,
      Or.inl rfl⟩

/-- The application has no part in the buffer, or in the loop. -/
theorem stepApplication_spec {call : Call} (h : c.stepApplication call = some c') :
    Unused c c' ∧ c'.phase = c.phase ∧ Serves c.context c'.context := by
  rcases stepApplication_cases h with ⟨addr, serverName, -, -, rfl⟩ |
    ⟨context, closeHandle, requests, recvConnect, rfl, hserves, -, -⟩
  · exact ⟨⟨rfl, rfl, rfl⟩, rfl, Or.inl rfl⟩
  · exact ⟨⟨rfl, rfl, rfl⟩, rfl, hserves⟩

/-- **A round of `send_stateless_packets`**: the first packet is handed to the socket, and
dropped. -/
theorem sendStatelessPackets_spec (c : ContextInner) (answer : SendAnswer) :
    (c.stateless = [] ∧ c.sendStatelessPackets answer = { c with phase := .flush }) ∨
    ∃ packet stateless phase, c.stateless = packet :: stateless ∧
      c.sendStatelessPackets answer = { c with
        stateless, phase, statelessOffers := c.statelessOffers ++ [(packet, answer)] } ∧
      phase = if answer = .sent then c.phase else .flush := by
  rw [sendStatelessPackets]
  split
  · exact Or.inl ⟨‹_›, rfl⟩
  · refine Or.inr ⟨_, _, _, ‹_›, ?_, rfl⟩
    cases answer <;> rfl

/-- **A round begins.** A connection that is disconnected is deleted. -/
theorem nextConnection_spec {d : Due} (h : c.nextConnection d = some c') :
    Unused c c' ∧ (c'.context = c.context ∨ ∃ k cnx, d = .cnx k ∧ c.context.cnxs[k]? = some cnx ∧
      cnx.disconnected = true ∧ c.context.step (.delete k) = some c'.context) := by
  unfold nextConnection at h
  split at h
  · exact Option.some.inj h ▸ ⟨⟨rfl, rfl, rfl⟩, Or.inl rfl⟩
  · exact Option.some.inj h ▸ ⟨⟨rfl, rfl, rfl⟩, Or.inl rfl⟩
  · rename_i k
    split at h
    · rename_i cnx hk
      split at h
      · exact Option.some.inj h ▸ ⟨⟨rfl, rfl, rfl⟩, Or.inl rfl⟩
      · split at h
        · rename_i hd
          obtain ⟨context, hcontext, h⟩ := Option.bind_eq_some_iff.mp h
          exact Option.some.inj h ▸ ⟨⟨rfl, rfl, rfl⟩, Or.inr ⟨k, cnx, rfl, hk, hd, hcontext⟩⟩
        · exact Option.some.inj h ▸ ⟨⟨rfl, rfl, rfl⟩, Or.inl rfl⟩
    · exact Option.some.inj h ▸ ⟨⟨rfl, rfl, rfl⟩, Or.inl rfl⟩

/-- The contexts take part in the loop of `send_connection_packets`, and where it is. -/
theorem nextConnection_frame {d : Due} (h : c.nextConnection d = some c') :
    ∃ context phase, c' = { c with context, phase } := by
  unfold nextConnection at h
  split at h
  · exact ⟨_, _, (Option.some.inj h).symm⟩
  · exact ⟨_, _, (Option.some.inj h).symm⟩
  · split at h
    · split at h
      · exact ⟨_, _, (Option.some.inj h).symm⟩
      · split at h
        · obtain ⟨context, -, h⟩ := Option.bind_eq_some_iff.mp h
          exact ⟨_, _, (Option.some.inj h).symm⟩
        · exact ⟨_, _, (Option.some.inj h).symm⟩
    · exact ⟨_, _, (Option.some.inj h).symm⟩

/-- A datagram is handed to the socket, and may stay in the buffer. -/
theorem sendDataInBuffer_frame {len : ℕ} {addr : SocketAddr} {answer : SendAnswer} {sent : Bool}
    (h : c.sendDataInBuffer len addr answer = some (sent, c')) :
    ∃ notSendLength packets, c' = { c with notSendLength, packets } := by
  rw [sendDataInBuffer] at h
  split at h
  · cases answer <;> exact ⟨_, _, (Prod.mk.inj (Option.some.inj h)).2.symm⟩
  · simp at h

theorem flushPending_frame {answer : SendAnswer} (h : c.flushPending answer = some c') :
    ∃ notSendLength packets phase, c' = { c with notSendLength, packets, phase } := by
  rw [flushPending] at h
  split at h
  · obtain ⟨⟨sent, c₁⟩, hs, h⟩ := Option.bind_eq_some_iff.mp h
    obtain ⟨notSendLength, packets, rfl⟩ := sendDataInBuffer_frame hs
    exact ⟨_, _, _, (Option.some.inj h).symm⟩
  · exact ⟨_, _, _, (Option.some.inj h).symm⟩

theorem packetPrepared_frame {bytes : Bytes} {ret : Prepared} {answer : SendAnswer}
    (h : c.packetPrepared bytes ret answer = some c') :
    ∃ buffer notSendLength packets phase,
      c' = { c with buffer, notSendLength, packets, phase } := by
  rw [packetPrepared] at h
  simp only at h
  split at h
  · obtain ⟨⟨sent, c₁⟩, hs, h⟩ := Option.bind_eq_some_iff.mp h
    obtain ⟨notSendLength, packets, rfl⟩ := sendDataInBuffer_frame hs
    exact ⟨_, _, _, _, (Option.some.inj h).symm⟩
  · exact ⟨_, _, _, _, (Option.some.inj h).symm⟩

/-! ### The steps -/

/-- **What a step does to the contexts.** They are polled at the top of the loop; a round of
`check_for_new_connection_request` may make a connection; a round of `send_connection_packets`
deletes one that is due and disconnected; picoquic acts while it is called, and the application
at any time. -/
theorem step_contexts {e : Event} (h : c.step e = some c') :
    Serves c.context c'.context ∨
    (e = .contexts ∧ e.possible c.phase = true ∧ c.context.step .poll = some c'.context) ∨
    (∃ created, e = .request created ∧ e.possible c.phase = true ∧
      c.checkForNewConnectionRequest created = some c') ∨
    (∃ k cnx, e = .due (.cnx k) ∧ e.possible c.phase = true ∧
      c.context.cnxs[k]? = some cnx ∧ cnx.disconnected = true ∧
      c.context.step (.delete k) = some c'.context) ∨
    ∃ q, e = .quic q ∧ c.context.step q.toContext = some c'.context := by
  rw [step] at h
  split at h
  · rename_i hpos
    cases e with
    | contexts =>
      obtain ⟨context, hcontext, h⟩ := Option.bind_eq_some_iff.mp h
      obtain rfl := Option.some.inj h
      refine Or.inr (Or.inl ⟨rfl, hpos, hcontext.trans ?_⟩)
      split <;> rfl
    | request created => exact Or.inr (Or.inr (Or.inl ⟨created, rfl, hpos, h⟩))
    | receive r =>
      obtain rfl := Option.some.inj h
      cases r <;> exact Or.inl (Or.inl rfl)
    | incomingPacketReturns bytes stateless =>
      obtain rfl := Option.some.inj h
      refine Or.inl (Or.inl ?_)
      rw [incomingPacketReturns]
      split <;> rfl
    | stateless answer =>
      obtain rfl := Option.some.inj h
      refine Or.inl (Or.inl ?_)
      rcases sendStatelessPackets_spec c answer with
        ⟨-, hc⟩ | ⟨packet, stateless, phase, -, hc, -⟩ <;>
        rw [hc]
    | flush answer =>
      obtain ⟨notSendLength, packets, phase, rfl⟩ := flushPending_frame h
      exact Or.inl (Or.inl rfl)
    | due d =>
      rcases (nextConnection_spec h).2 with hcontext | ⟨k, cnx, rfl, hdelete⟩
      · exact Or.inl (Or.inl hcontext)
      · exact Or.inr (Or.inr (Or.inr (Or.inl ⟨k, cnx, rfl, hpos, hdelete⟩)))
    | packetPrepared bytes ret answer =>
      obtain ⟨buffer, notSendLength, packets, phase, rfl⟩ := packetPrepared_frame h
      exact Or.inl (Or.inl rfl)
    | sleep nextWake =>
      obtain rfl := Option.some.inj h
      refine Or.inl (Or.inl ?_)
      rw [sleep]
      split
      · rfl
      · split <;> rfl
    | quic q =>
      obtain ⟨context, hcontext, h⟩ := Option.bind_eq_some_iff.mp h
      obtain rfl := Option.some.inj h
      exact Or.inr (Or.inr (Or.inr (Or.inr ⟨q, rfl, hcontext⟩)))
    | application call => exact Or.inl (stepApplication_spec h).2.2
    | poll =>
      obtain rfl := Option.some.inj h
      exact Or.inl (Or.inl rfl)
  · obtain rfl := Option.some.inj h
    exact Or.inl (Or.inl rfl)

/-- At most one step that makes no outgoing connection and deletes nothing; or it is a round of
`check_for_new_connection_request`; or the deletion of a connection that is due and
disconnected. -/
theorem step_acts {e : Event} (h : c.step e = some c') :
    Acts c.context c'.context ∨
    (∃ created, e = .request created ∧ e.possible c.phase = true ∧
      c.checkForNewConnectionRequest created = some c') ∨
    ∃ k cnx, e = .due (.cnx k) ∧ e.possible c.phase = true ∧
      c.context.cnxs[k]? = some cnx ∧ cnx.disconnected = true ∧
      c.context.step (.delete k) = some c'.context := by
  rcases step_contexts h with hserves | ⟨-, -, hpoll⟩ | hrequest | hdelete | ⟨q, -, hquic⟩
  · exact Or.inl hserves.acts
  · exact Or.inl (Or.inr ⟨.poll, rfl, rfl, hpoll⟩)
  · exact Or.inr (Or.inl hrequest)
  · exact Or.inr (Or.inr hdelete)
  · exact Or.inl (Or.inr ⟨_, by cases q <;> rfl, by cases q <;> rfl, hquic⟩)

/-- A step deletes nothing, or it deletes a connection that is due and disconnected. -/
theorem step_context {e : Event} (h : c.step e = some c') :
    Steps c.context c'.context ∨ ∃ k cnx, e = .due (.cnx k) ∧ e.possible c.phase = true ∧
      c.context.cnxs[k]? = some cnx ∧ cnx.disconnected = true ∧
      c.context.step (.delete k) = some c'.context := by
  rcases step_acts h with hacts | ⟨created, -, -, hc⟩ | hdelete
  · exact Or.inl hacts.steps
  · exact Or.inl ((checkForNewConnectionRequest_spec hc).2.2.imp_right
      fun ⟨_, hstep⟩ => ⟨_, rfl, hstep⟩)
  · exact Or.inr hdelete

/-! ### The queues -/

/-- **The queues are left alone**, and the number of loops. Of a connect request only its future
may be dropped. -/
structure Aside (c c' : ContextInner) : Prop where
  stateless : c'.stateless = c.stateless
  statelessOffers : c'.statelessOffers = c.statelessOffers
  queue : c'.recvConnect.queue = c.recvConnect.queue
  isOpen : c'.recvConnect.isOpen = c.recvConnect.isOpen
  requests : c'.requests.map ConnectRequest.apart = c.requests.map ConnectRequest.apart
  loops : c'.loopsWithoutSleep = c.loopsWithoutSleep

theorem Aside.refl (c : ContextInner) : Aside c c := ⟨rfl, rfl, rfl, rfl, rfl, rfl⟩

theorem Aside.trans {c'' : ContextInner} (h : Aside c c') (h' : Aside c' c'') : Aside c c'' :=
  ⟨h'.stateless.trans h.stateless, h'.statelessOffers.trans h.statelessOffers,
    h'.queue.trans h.queue, h'.isOpen.trans h.isOpen, h'.requests.trans h.requests,
    h'.loops.trans h.loops⟩

/-- The application only ever adds a request. -/
theorem stepApplication_aside {call : Call} (h : c.stepApplication call = some c')
    (hno : ∀ addr serverName, call ≠ .newConnection addr serverName) : Aside c c' := by
  rcases stepApplication_cases h with ⟨addr, serverName, hcall, -, -⟩ |
    ⟨context, closeHandle, requests, recvConnect, rfl, -, ha, hrecv⟩
  · exact absurd hcall (hno addr serverName)
  · rcases hrecv with rfl | rfl | ⟨-, rfl⟩ <;> exact ⟨rfl, rfl, rfl, rfl, ha, rfl⟩

theorem nextConnection_aside {d : Due} (h : c.nextConnection d = some c') : Aside c c' := by
  obtain ⟨context, phase, rfl⟩ := nextConnection_frame h
  exact ⟨rfl, rfl, rfl, rfl, rfl, rfl⟩

theorem flushPending_aside {answer : SendAnswer} (h : c.flushPending answer = some c') :
    Aside c c' := by
  obtain ⟨notSendLength, packets, phase, rfl⟩ := flushPending_frame h
  exact ⟨rfl, rfl, rfl, rfl, rfl, rfl⟩

theorem packetPrepared_aside {bytes : Bytes} {ret : Prepared} {answer : SendAnswer}
    (h : c.packetPrepared bytes ret answer = some c') : Aside c c' := by
  obtain ⟨buffer, notSendLength, packets, phase, rfl⟩ := packetPrepared_frame h
  exact ⟨rfl, rfl, rfl, rfl, rfl, rfl⟩

/-! ### Where the loop goes on -/

/-- The answer of `ConnectionIter` ends the loop of `send_connection_packets`: no connection
is due, or the one that is due is disconnected. -/
def endsConnections (c : ContextInner) : Due → Bool
  | .none => true
  | .refused disconnected => disconnected
  | .cnx k => c.context.cnxs[k]?.any fun cnx => cnx.deleted.isNone && cnx.disconnected

theorem sendDataInBuffer_sent {len : ℕ} {addr : SocketAddr} {answer : SendAnswer} {sent : Bool}
    (h : c.sendDataInBuffer len addr answer = some (sent, c')) :
    sent = (answer != .notReady) := by
  rw [sendDataInBuffer] at h
  split at h
  · cases answer <;> exact (Prod.mk.inj (Option.some.inj h)).1.symm
  · simp at h

theorem flushPending_phase {answer : SendAnswer} (h : c.flushPending answer = some c') :
    c'.phase = .connections ∨ c'.phase = .wake := by
  rw [flushPending] at h
  split at h
  · obtain ⟨⟨sent, c₁⟩, -, h⟩ := Option.bind_eq_some_iff.mp h
    obtain rfl := Option.some.inj h
    cases sent
    · exact Or.inr rfl
    · exact Or.inl rfl
  · obtain rfl := Option.some.inj h
    exact Or.inl rfl

theorem nextConnection_phase {d : Due} (hp : c.phase = .connections)
    (h : c.nextConnection d = some c') :
    c'.phase = .wake ∨
      c.endsConnections d = false ∧ (c'.phase = .connections ∨ c'.phase = .preparePacket) := by
  unfold nextConnection at h
  split at h
  · exact Option.some.inj h ▸ Or.inl rfl
  · rename_i disconnected
    obtain rfl := Option.some.inj h
    cases disconnected
    · exact Or.inr ⟨rfl, Or.inr rfl⟩
    · exact Or.inl rfl
  · split at h
    · rename_i cnx hk
      rw [endsConnections, hk, Option.any_some]
      split at h
      · rename_i hdeleted
        obtain rfl := Option.some.inj h
        refine Or.inr ⟨?_, Or.inl hp⟩
        rw [← Option.not_isSome, hdeleted, Bool.not_true, Bool.false_and]
      · split at h
        · obtain ⟨context, -, h⟩ := Option.bind_eq_some_iff.mp h
          exact Option.some.inj h ▸ Or.inl rfl
        · rename_i hdisconnected
          obtain rfl := Option.some.inj h
          refine Or.inr ⟨?_, Or.inr rfl⟩
          simp [hdisconnected]
    · rename_i hk
      obtain rfl := Option.some.inj h
      exact Or.inr ⟨by rw [endsConnections, hk, Option.any_none], Or.inl hp⟩

theorem packetPrepared_phase {bytes : Bytes} {ret : Prepared} {answer : SendAnswer}
    (h : c.packetPrepared bytes ret answer = some c') :
    c'.phase = .wake ∨
      (ret.packet.isNone || answer != .notReady) = true ∧ c'.phase = .connections := by
  rw [packetPrepared] at h
  simp only at h
  split at h
  · rename_i len addr hret
    obtain ⟨⟨sent, c₁⟩, hs, h⟩ := Option.bind_eq_some_iff.mp h
    obtain rfl := Option.some.inj h
    obtain rfl := sendDataInBuffer_sent hs
    cases hanswer : answer != .notReady with
    | true => exact Or.inr ⟨Bool.or_true _, rfl⟩
    | false => exact Or.inl rfl
  · rename_i hret
    obtain rfl := Option.some.inj h
    exact Or.inr ⟨by rw [hret]; rfl, rfl⟩

end ContextInner

end Endpoint

end PicoquicRs
