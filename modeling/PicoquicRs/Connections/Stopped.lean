import PicoquicRs.Connections.Steps
import PicoquicRs.Streams.Direction

/-!
# Nothing waits for a context that is gone

When the event loop is done with a connection it drops the context, and with it one end of every
channel the application polls or sends on. Nothing of what the application still holds may wait
for that end: a `Stream` is told the end, and cannot send; the `Connection` ends; the future of a
connect request and those of the create requests resolve, those made later included.

The last are where something could be forgotten: a request is answered through a channel of its
own, whose sender is in the queue of requests and nowhere else. So the invariant is that every
request without an answer is in the queue (`PicoquicRs.Connections.Context.Queued`), which is
emptied when the context is dropped. The result is
`PicoquicRs.Connections.Ends.nothing_waits`.
-/

namespace PicoquicRs

namespace Streams

namespace Pair

variable {p : Pair} {s : Stream} {id : Id} {isClientCon : Bool} {es : List Event}

/-- The errors left in the channels are known as long as the `Stream` is there. -/
theorem run_traced (h : HasSendHalf id isClientCon)
    (hrun : (Streams.new id isClientCon).run es = some p) :
    p.stream = none ∨ ∃ E, p.Traced E := by
  refine Trace.run_keeps (P := fun p : Pair => p.stream = none ∨ ∃ E, p.Traced E) ?_
    (Or.inr ⟨_, (new_sends h).traced⟩) hrun
  rintro p e - p' hp hstep
  rcases hs : p.stream with _ | s
  · exact Or.inl (step_of_stream_eq_none hs hstep).1
  obtain ⟨E, ht⟩ := hp.resolve_left (by simp [hs])
  refine Or.inr ?_
  cases hconn : e.isConnectionError with
  | false => exact ⟨E, (ht.step hconn hstep).1⟩
  | true =>
    obtain ⟨err, rfl⟩ : ∃ err, e = .connectionError err := by
      cases e <;> simp [Event.isConnectionError] at hconn
      exact ⟨_, rfl⟩
    rcases step_cases hstep with ⟨s, hat, -⟩ | ⟨-, ha, hstep⟩ | ⟨rfl, -⟩
    · simp [Event.atStream] at hat
    · obtain rfl := Option.some.inj hstep
      exact ⟨_, ht.connectionError ha hs err⟩
    · exact ⟨E, ht⟩

/-- **A `Stream` without its context** has something to tell at every poll, and can neither send
nor be reset. -/
structure Abandoned (p : Pair) (s : Stream) : Prop where
  poll : ∃ o s' c', s.poll p.ctx = some (some o, s', c')
  startSend : ∀ item room, ∃ err, (s.startSend p.ctx item room).1 = .error err
  reset : ∃ err, (Stream.reset p.ctx).1 = .error err

/-- **A `Stream` does not wait for a context that is gone.** -/
theorem abandoned_of_run (hrun : (Streams.new id isClientCon).run es = some p)
    (ha : p.alive = false) (hs : p.stream = some s) : p.Abandoned s := by
  obtain ⟨hl, -, hsd⟩ := run_grown (new_linked id isClientCon) hrun
  have hends := hl.ends
  simp only [Context.ends, ha, Prod.mk.injEq] at hends
  obtain ⟨⟨-, hsenders⟩, hopen, -⟩ := hends
  refine ⟨?_, fun item room => ?_, ?_⟩
  · obtain ⟨o, s', hpoll, -⟩ := Stream.poll_frame s p.ctx hl.ctx.recv
    cases o with
    | some o => exact ⟨o, s', _, hpoll⟩
    | none =>
      -- the channel has ended, so the poll is not void
      exfalso
      have hend : p.ctx.recvMsg.isEnded = true := by simp [Futures.Chan.isEnded, hsenders]
      cases hq : p.ctx.recvMsg.queue with
      | nil =>
        rw [Stream.poll, Futures.Chan.poll_of_ended hq hend] at hpoll
        simp at hpoll
      | cons m q =>
        rw [Stream.poll, Futures.Chan.poll_of_cons hq] at hpoll
        cases m <;> simp at hpoll
  · obtain ⟨s₀, hs₀, hiff⟩ := hsd s hs
    obtain rfl := Option.some.inj ((new_stream id isClientCon).symm.trans hs₀)
    by_cases h : HasSendHalf id isClientCon
    · obtain ⟨r, hr⟩ : ∃ r, s.sendData = some r := by
        refine Option.ne_none_iff_exists'.mp fun hn => ?_
        simp [if_pos h] at hiff
        exact hiff hn
      obtain ⟨E, ht⟩ := (run_traced h hrun).resolve_left (by simp [hs])
      have hcur : p.cur = some r := by simp [cur, hs, hr]
      exact ⟨_, startSend_of_closed hr (ht.closed ha hcur) item room⟩
    · have hn : s.sendData = none := by simpa [if_neg h] using hiff
      exact ⟨ErrorKind.sendOnUnidirectional,
        by simp only [Stream.startSend, Stream.getSendData, hn]⟩
  · rw [Stream.reset, Futures.Chan.unboundedSend_of_closed hopen]
    exact ⟨_, rfl⟩

end Pair

end Streams

namespace Connections

open Futures

/-- A context that was dropped stays dropped. -/
theorem Entry.Later.alive_eq_false {en en' : Entry} (h : en.Later en')
    (ha : en.pair.alive = false) : en'.pair.alive = false := by
  obtain ⟨es, -, hrun⟩ := h.run
  exact Trace.run_keeps (P := fun p : Streams.Pair => p.alive = false)
    (fun _ _ _ _ ha hstep => Streams.Pair.step_dropped ha hstep) ha hrun

namespace Context

variable {c c' : Context} {r : RequestRef} {alive : Bool}

/-- **A request without an answer is in the queue.** -/
def Queued (c : Context) : Prop :=
  ∀ r < c.answers.next, (c.answers.cell r).pending = true →
    r ∈ c.recvCreateStream.chan.queue.map Prod.snd

theorem Queued.of_eq (h : c.Queued)
    (hq : c'.recvCreateStream.chan.queue = c.recvCreateStream.chan.queue)
    (hn : c'.answers.next = c.answers.next)
    (hp : ∀ r, (c'.answers.cell r).pending = (c.answers.cell r).pending) : c'.Queued := by
  intro r hr hpend
  rw [hq]
  exact h r (hn ▸ hr) ((hp r).symm.trans hpend)

/-- Where the requests in the queue are settled, none is left. -/
theorem foldl_modify_pending
    {g : Oneshot (Except Error StreamRef) → Oneshot (Except Error StreamRef)}
    (hg : ∀ o, (g o).pending = false) (queue : List (SType × RequestRef))
    (answers : Store (Oneshot (Except Error StreamRef))) :
    (queue.foldl (fun h request => Store.modify h request.2 g) answers).next = answers.next ∧
      ∀ r, ((queue.foldl (fun h request => Store.modify h request.2 g) answers).cell r).pending =
        true → (answers.cell r).pending = true ∧ r ∉ queue.map Prod.snd := by
  induction queue generalizing answers with
  | nil => exact ⟨rfl, fun r h => ⟨h, List.not_mem_nil⟩⟩
  | cons request queue ih =>
    obtain ⟨hn, hp⟩ := ih (answers.modify request.2 g)
    refine ⟨hn, fun r hr => ?_⟩
    obtain ⟨hpend, hmem⟩ := hp r hr
    rcases eq_or_ne r request.2 with rfl | hne
    · rw [Store.modify_cell_self, hg] at hpend
      cases hpend
    · rw [Store.modify_cell_of_ne _ _ hne] at hpend
      exact ⟨hpend, by simpa [hne] using hmem⟩

/-- All requests are settled. -/
theorem Queued.settle (h : c.Queued)
    {g : Oneshot (Except Error StreamRef) → Oneshot (Except Error StreamRef)}
    (hg : ∀ o, (g o).pending = false)
    (ha : c'.answers = c.recvCreateStream.chan.queue.foldl
      (fun h request => Store.modify h request.2 g) c.answers) : c'.Queued ∧
    ∀ r < c'.answers.next, (c'.answers.cell r).pending = false := by
  obtain ⟨hn, hp⟩ := foldl_modify_pending hg c.recvCreateStream.chan.queue c.answers
  have hnone : ∀ r < c'.answers.next, (c'.answers.cell r).pending = false := by
    intro r hr
    rw [ha] at hr ⊢
    by_contra hpend
    obtain ⟨hold, hmem⟩ := hp r (by simpa using hpend)
    exact hmem (h r (hn ▸ hr) hold)
  exact ⟨fun r hr hpend => absurd (hpend.symm.trans (hnone r hr)) (by simp), hnone⟩

/-- **What the context still owes the application**: an answer to every request that is in the
queue, the end of the messages, and the outcome of the wait for the `Connection`; once it is gone,
nothing. -/
structure Owes (c : Context) (alive : Bool) : Prop where
  queued : c.Queued
  senders : c.sendMsg.senders = if alive then 1 else 0
  shut : alive = false → c.recvCreateStream.chan.isOpen = false
  empty : alive = false → c.recvCreateStream.chan.queue = []
  created : alive = false → c.created.pending = false
  streams : alive = false → ∀ en ∈ c.streams, en.pair.alive = false

/-- A future without a sender resolves. -/
theorem pollRequest_ne_none (h : (c.answers.cell r).pending = false) :
    (c.pollRequest r).1 ≠ none := by
  simp only [pollRequest]
  split <;> rename_i hp
  · simp
  · exact absurd hp (Oneshot.poll_ne_notReady h)
  · simp

theorem pollCreated_ne_none (h : c.created.pending = false) : c.pollCreated.1 ≠ none := by
  simp only [pollCreated]
  split <;> rename_i hp
  · simp
  · exact absurd hp (Oneshot.poll_ne_notReady h)
  · simp

/-- Messages without a sender end. -/
theorem pollConnection_ne_none (h : c.sendMsg.isEnded = true) : c.pollConnection.1 ≠ none := by
  cases hq : c.sendMsg.queue with
  | nil =>
    rw [pollConnection, Chan.poll_of_ended hq h]
    exact Option.some_ne_none _
  | cons msg q =>
    rw [pollConnection, Chan.poll_of_cons hq]
    cases msg <;> exact Option.some_ne_none _

namespace Owes

/-- Neither the requests nor who may send have changed. -/
theorem frame (h : c.Owes alive) (hl : Laters c.streams c'.streams)
    (hs : c'.sendMsg.senders = c.sendMsg.senders)
    (hq : c'.recvCreateStream.chan.queue = c.recvCreateStream.chan.queue)
    (ho : c'.recvCreateStream.chan.isOpen = c.recvCreateStream.chan.isOpen)
    (hc : c'.created.pending = c.created.pending) (hn : c'.answers.next = c.answers.next)
    (hp : ∀ r, (c'.answers.cell r).pending = (c.answers.cell r).pending) : c'.Owes alive where
  queued := h.queued.of_eq hq hn hp
  senders := hs.trans h.senders
  shut ha := ho.trans (h.shut ha)
  empty ha := hq.trans (h.empty ha)
  created ha := hc.trans (h.created ha)
  streams ha := hl.forall_mem (P := fun en => en.pair.alive = false)
    (fun _ _ hl hd => hl.alive_eq_false hd) (h.streams ha)

/-- While the context is there, only the requests and the messages matter. -/
theorem of_alive (hq : c.Queued) (hs : c.sendMsg.senders = 1) : c.Owes true :=
  ⟨hq, hs, nofun, nofun, nofun, nofun⟩

theorem senders_eq_one (h : c.Owes true) : c.sendMsg.senders = 1 := h.senders

theorem dropConnection (h : c.Owes alive) (hc : c.dropConnection = some c') : c'.Owes alive := by
  obtain ⟨streams, rfl, hl⟩ := dropConnection_spec hc
  exact h.frame hl rfl rfl rfl rfl rfl fun _ => rfl

theorem atStream (h : c.Owes alive) {k : StreamRef} {e : Streams.Event}
    (hc : c.atStream k e = some c') : c'.Owes alive := by
  obtain ⟨streams, rfl, hl⟩ := atStream_spec hc
  exact h.frame hl rfl rfl rfl rfl rfl fun _ => rfl

/-- **A request is made**: it is queued, or answered at once. -/
theorem newStreamHandle (h : c.Owes alive) (stype : SType) :
    (c.newStreamHandle stype).Owes alive := by
  have hcell : ∀ r < c.answers.next + 1, r ≠ c.answers.next →
      r < c.answers.next ∧ (c.answers.alloc Oneshot.new).cell r = c.answers.cell r := by
    intro r hr hne
    exact ⟨lt_of_le_of_ne (Nat.le_of_lt_succ hr) hne, Store.alloc_cell_of_ne _ _ hne⟩
  rcases newStreamHandle_spec c stype with ⟨ho, hc⟩ | ⟨-, hc⟩
  · have halive : alive = true := by
      by_contra hgone
      rw [h.shut (by simpa using hgone)] at ho
      cases ho
    subst halive
    rw [hc]
    refine of_alive (fun r hr hpend => ?_) h.senders_eq_one
    simp only [Chan.push_queue, List.map_append, List.map_cons, List.map_nil, List.mem_append,
      List.mem_singleton]
    by_cases hne : r = c.answers.next
    · exact Or.inr hne
    · obtain ⟨hlt, heq⟩ := hcell r hr hne
      exact Or.inl (h.queued r hlt (heq ▸ hpend))
  · rw [hc]
    refine ⟨fun r hr hpend => ?_, h.senders, h.shut, h.empty, h.created, h.streams⟩
    by_cases hne : r = c.answers.next
    · subst hne
      simp [Oneshot.send] at hpend
    · obtain ⟨hlt, heq⟩ := hcell r hr hne
      simp only [Store.modify_cell_of_ne _ _ hne, heq] at hpend
      exact h.queued r hlt hpend

theorem pollRequest (h : c.Owes alive) (r : RequestRef) : (c.pollRequest r).2.Owes alive := by
  have hctx : (c.pollRequest r).2 =
      { c with answers := c.answers.modify r fun _ => (c.answers.cell r).poll.2 } := by
    simp only [Context.pollRequest]
    split <;> rfl
  rw [hctx]
  exact h.frame (.refl _) rfl rfl rfl rfl rfl
    (c.answers.modify_cell_congr (fun _ => (c.answers.cell r).poll.2) Oneshot.pending
      Oneshot.poll_pending)

theorem dropRequest (h : c.Owes alive) (hc : c.dropRequest r = some c') : c'.Owes alive := by
  have h₁ : { c with answers := c.answers.modify r Oneshot.dropReceiver }.Owes alive :=
    h.frame (.refl _) rfl rfl rfl rfl rfl (Store.modify_cell_congr _ _ Oneshot.pending rfl)
  simp only [Context.dropRequest] at hc
  split at hc
  · exact h₁.atStream hc
  · exact Option.some.inj hc ▸ h₁

theorem pollConnection (h : c.Owes alive) : c.pollConnection.2.Owes alive := by
  have hctx : c.pollConnection.2 = { c with sendMsg := c.sendMsg.poll.2 } := by
    simp only [Context.pollConnection]
    split <;> rename_i hp <;> rw [hp]
    split <;> rfl
  rw [hctx]
  exact h.frame (.refl _) Chan.poll_senders rfl rfl rfl rfl fun _ => rfl

/-! ### While the context is there -/

/-- What every context in the map is left with by an event, it has afterwards. -/
theorem eachContext_forall {P : Entry → Prop} {sel : Entry → Bool} {e : Streams.Event}
    (hP : ∀ en en' : Entry, en.takeInMap sel e = some en' → P en')
    (h : c.eachContext sel e = some c') :
    ∀ en ∈ c'.streams, P en := by
  obtain ⟨streams, hs, h⟩ := Option.bind_eq_some_iff.mp h
  obtain rfl := Option.some.inj h
  intro en' hen'
  obtain ⟨k, hk, rfl⟩ := List.mem_iff_getElem.mp hen'
  obtain ⟨en, -, htake⟩ := Each.of_mapM_getElem? hs (List.getElem?_eq_getElem hk)
  exact hP _ _ htake

/-- The event loop drops the contexts in the map with it. -/
theorem eachContext_dropContext (h : c.eachContext (fun _ => true) .dropContext = some c') :
    ∀ en ∈ c'.streams, en.pair.alive = false := by
  refine eachContext_forall (fun en en' htake => ?_) h
  rw [Entry.takeInMap, Bool.and_true] at htake
  split at htake
  · rename_i ha
    obtain ⟨pair, hp, htake⟩ := Option.bind_eq_some_iff.mp htake
    obtain rfl := Option.some.inj htake
    rw [Streams.Pair.step, if_neg (by decide), if_pos ha] at hp
    exact Option.some.inj hp ▸ rfl
  · rename_i ha
    obtain rfl := Option.some.inj htake
    simpa using ha

theorem send_senders (ch : Chan Message) (msg : Message) :
    (if ch.isOpen then ch.push msg else ch).senders = ch.senders := by
  cases ch.isOpen <;> rfl

theorem handleCallback (h : c.Owes true) {cb : Callback} (hc : c.handleCallback cb = some c') :
    c'.Owes true := by
  have hvoid : some c = some c' → c'.Owes true := by
    intro hc
    exact Option.some.inj hc ▸ h
  cases cb with
  | almostReady =>
    rw [Context.handleCallback] at hc
    split at hc
    · obtain ⟨-, c₁, hc₁, hcase⟩ := processWaitForReadyState_spec hc
      have h₁ : c₁.Owes true := by
        rw [hc₁]
        exact of_alive h.queued h.senders_eq_one
      rcases hcase with ⟨-, rfl⟩ | ⟨-, hdrop⟩
      · exact h₁
      · exact h₁.dropConnection hdrop
    · exact hvoid hc
  | stream id scb =>
    rw [Context.handleCallback] at hc
    split at hc
    · rcases handleStreamCallback_spec hc with ⟨-, streams, rfl, -⟩ | ⟨-, streams, rfl, -⟩
      · exact of_alive h.queued h.senders_eq_one
      · exact of_alive h.queued ((send_senders _ _).trans h.senders_eq_one)
    · exact hvoid hc

theorem checkCreateStreamRequests (h : c.Owes true) (hc : c.checkCreateStreamRequests = some c') :
    c'.Owes true := by
  refine checkCreateStreamRequests_rule (P := (Owes · true)) (Q := (Owes · true)) ?_ ?_ h hc
  · intro c stype r q streams h hq _ _
    refine of_alive (fun r' hr hpend => ?_) h.senders_eq_one
    have hne : r' ≠ r := by
      rintro rfl
      simp [Oneshot.send] at hpend
    simp only [Store.modify_cell_of_ne _ _ hne] at hpend
    have hmem := h.queued r' hr hpend
    have hqueue : (c.createStream stype).recvCreateStream.chan.queue = q :=
      Chan.poll_queue.trans (by rw [hq, List.tail_cons])
    simp only [hqueue]
    simpa [hq, hne] using hmem
  · intro c h hq
    refine of_alive (h.queued.of_eq ?_ rfl fun _ => rfl) h.senders_eq_one
    exact Chan.poll_queue.trans (by rw [hq, List.tail_nil])

theorem close (h : c.Owes true) (hc : c.close = some c') : c'.Owes true := by
  obtain ⟨streams, rfl, -⟩ := close_spec hc
  exact of_alive h.queued ((send_senders _ _).trans h.senders_eq_one)

theorem handleClose (h : c.Owes true) {codes : Codes} (hc : c.handleClose codes = some c') :
    c'.Owes true := by
  obtain ⟨c₁, hc₁, hc⟩ := Option.bind_eq_some_iff.mp hc
  refine close ?_ hc
  cases herr : codes.error.1 with
  | none =>
    obtain rfl := checkAndHandleError_none herr hc₁
    exact of_alive h.queued h.senders_eq_one
  | some err =>
    obtain ⟨streams, chan, c₂, -, -, -, hc₂, hcase⟩ := checkAndHandleError_found herr hc₁
    have hqueued : c₂.Queued := by
      rw [hc₂]
      exact (h.queued.settle (g := (Oneshot.send · (.error err))) (fun _ => rfl) rfl).1
    have hsend : c₂.sendMsg = c.sendMsg := by rw [hc₂]
    rcases hcase with ⟨-, hdrop⟩ | ⟨-, rfl⟩
    · refine dropConnection ?_ hdrop
      exact of_alive hqueued (by rw [hsend]; exact h.senders_eq_one)
    · exact of_alive hqueued ((send_senders _ _).trans h.senders_eq_one)

theorem poll (h : c.Owes true) {a : Async Unit} (hc : c.poll = some (a, c')) : c'.Owes true := by
  rcases poll_spec hc with ⟨-, rfl⟩ | ⟨-, streams, c₂, -, hc₂, hend⟩
  · exact h
  · have h₁ : { c with streams }.Owes true := of_alive h.queued h.senders_eq_one
    have h₂ := h₁.checkCreateStreamRequests hc₂
    have h₃ : { c₂ with closeRecv := c₂.closeRecv.poll.2 }.Owes true :=
      of_alive h₂.queued h₂.senders_eq_one
    rcases hend with ⟨-, hclose⟩ | ⟨-, rfl⟩
    · exact h₃.close hclose
    · exact h₃

/-- **The context is dropped**, and owes nothing any more. -/
theorem drop (h : c.Owes true) (hc : c.drop = some c') : c'.Owes false := by
  have hstreams : ∀ en ∈ c'.streams, en.pair.alive = false := by
    obtain ⟨c₁, hc₁, hc⟩ := Option.bind_eq_some_iff.mp hc
    obtain ⟨c₂, hc₂, hc⟩ := Option.bind_eq_some_iff.mp hc
    obtain rfl := Option.some.inj hc
    have hl : Laters c₁.streams c₂.streams := by
      simp only [dropWaitForReadyState] at hc₂
      split at hc₂
      · obtain ⟨streams, rfl, hl⟩ := dropConnection_spec hc₂
        exact hl
      · exact Option.some.inj hc₂ ▸ .refl _
    exact hl.forall_mem (P := fun en => en.pair.alive = false)
      (fun _ _ hl hd => hl.alive_eq_false hd) (eachContext_dropContext hc₁)
  obtain ⟨streams, c₁, -, hcase, rfl⟩ := drop_spec hc
  have h₁ : c₁.Owes true ∧ c₁.created.pending = false := by
    rcases hcase with ⟨-, hdrop⟩ | ⟨-, rfl⟩
    · obtain ⟨streams', rfl, -⟩ := dropConnection_spec hdrop
      exact ⟨of_alive h.queued h.senders_eq_one, rfl⟩
    · exact ⟨of_alive h.queued h.senders_eq_one, rfl⟩
  refine ⟨(h₁.1.queued.settle (g := Oneshot.dropSender) (fun _ => rfl) rfl).1, ?_, fun _ => rfl,
    fun _ => rfl, fun _ => h₁.2, fun _ => hstreams⟩
  change c₁.sendMsg.senders - 1 = 0
  rw [h₁.1.senders_eq_one]

end Owes

end Context

/-! ### Runs -/

namespace Ends

open Context

variable {p p' : Ends} {e : Event} {isClient : Bool}

theorem stepApplication_owes (h : p.ctx.Owes p.alive) (hstep : p.stepApplication e = some p') :
    p'.alive = p.alive ∧ p'.ctx.Owes p.alive := by
  refine ⟨(stepApplication_spec hstep).1, ?_⟩
  have hvoid : some p = some p' → p'.ctx.Owes p.alive := by
    intro hstep
    exact Option.some.inj hstep ▸ h
  cases e with
  | newStream stype =>
    simp only [stepApplication] at hstep
    split at hstep
    · obtain rfl := Option.some.inj hstep
      exact h.newStreamHandle stype
    · exact hvoid hstep
  | cloneHandle =>
    simp only [stepApplication] at hstep
    split at hstep
    · obtain rfl := Option.some.inj hstep
      exact h.frame (.refl _) rfl rfl rfl rfl rfl fun _ => rfl
    · exact hvoid hstep
  | dropHandle =>
    simp only [stepApplication] at hstep
    split at hstep
    · obtain rfl := Option.some.inj hstep
      exact h.frame (.refl _) rfl rfl rfl rfl rfl fun _ => rfl
    · exact hvoid hstep
  | pollRequest r =>
    obtain rfl := Option.some.inj hstep
    exact h.pollRequest r
  | dropRequest r =>
    obtain ⟨c, hc, hstep⟩ := Option.bind_eq_some_iff.mp hstep
    obtain rfl := Option.some.inj hstep
    exact h.dropRequest hc
  | pollCreated =>
    obtain ⟨a, c, hp⟩ : ∃ a c, p.ctx.pollCreated = (a, c) := ⟨_, _, rfl⟩
    have hctx : p.ctx.pollCreated.2 = { p.ctx with created := p.ctx.created.poll.2 } := by
      simp only [Context.pollCreated]
      split <;> rfl
    simp only [stepApplication, hp] at hstep
    rw [hp] at hctx
    obtain rfl : c = _ := hctx
    obtain rfl := Option.some.inj hstep
    exact h.frame (.refl _) rfl rfl rfl Oneshot.poll_pending rfl fun _ => rfl
  | dropCreated =>
    obtain ⟨c, hc, hstep⟩ := Option.bind_eq_some_iff.mp hstep
    obtain rfl := Option.some.inj hstep
    have h₁ : { p.ctx with created := p.ctx.created.dropReceiver }.Owes p.alive :=
      h.frame (.refl _) rfl rfl rfl rfl rfl fun _ => rfl
    simp only [Context.dropCreated] at hc
    split at hc
    · exact h₁.dropConnection hc
    · exact Option.some.inj hc ▸ h₁
  | pollConnection =>
    simp only [stepApplication] at hstep
    split at hstep
    · obtain rfl := Option.some.inj hstep
      exact h.pollConnection
    · exact hvoid hstep
  | dropConnection =>
    simp only [stepApplication] at hstep
    split at hstep
    · obtain ⟨c, hc, hstep⟩ := Option.bind_eq_some_iff.mp hstep
      obtain rfl := Option.some.inj hstep
      exact h.dropConnection hc
    · exact hvoid hstep
  | closeImmediately =>
    simp only [stepApplication] at hstep
    split at hstep
    · obtain ⟨c, hc, hstep⟩ := Option.bind_eq_some_iff.mp hstep
      obtain rfl := Option.some.inj hstep
      refine Owes.dropConnection ?_ hc
      exact h.frame (.refl _) rfl rfl rfl rfl rfl fun _ => rfl
    · exact hvoid hstep
  | stream k e =>
    simp only [stepApplication] at hstep
    split at hstep
    · obtain ⟨c, hc, hstep⟩ := Option.bind_eq_some_iff.mp hstep
      obtain rfl := Option.some.inj hstep
      exact h.atStream hc
    · exact hvoid hstep
  | _ => exact hvoid hstep

theorem step_owes (h : p.ctx.Owes p.alive) (hstep : p.step e = some p') :
    p'.ctx.Owes p'.alive := by
  rw [step] at hstep
  split at hstep
  · split at hstep
    · rename_i ha
      rw [ha] at h
      cases e with
      | callback cb =>
        obtain ⟨c, hc, hstep⟩ := Option.bind_eq_some_iff.mp hstep
        obtain rfl := Option.some.inj hstep
        rw [ha]
        exact h.handleCallback hc
      | close codes =>
        obtain ⟨c, hc, hstep⟩ := Option.bind_eq_some_iff.mp hstep
        obtain rfl := Option.some.inj hstep
        rw [ha]
        exact h.handleClose hc
      | poll =>
        obtain ⟨⟨a, c⟩, hc, hstep⟩ := Option.bind_eq_some_iff.mp hstep
        obtain rfl := Option.some.inj hstep
        rw [ha]
        exact h.poll hc
      | drop =>
        obtain ⟨c, hc, hstep⟩ := Option.bind_eq_some_iff.mp hstep
        obtain rfl := Option.some.inj hstep
        exact h.drop hc
      | _ =>
        obtain rfl := Option.some.inj hstep
        rw [ha]
        exact h
    · exact Option.some.inj hstep ▸ h
  · obtain ⟨halive, h'⟩ := stepApplication_owes h hstep
    rw [halive]
    exact h'

theorem new_owes : (new isClient).ctx.Owes (new isClient).alive :=
  .of_alive (fun _ hr => absurd hr (Nat.not_lt_zero _)) rfl

/-- **Nobody waits**: each request that was made has an answer or an error, and one made now fails;
the `Connection` has a message or has ended; the future of the connect request has resolved; and
every `Stream` has something to tell, and can neither send nor be reset. -/
structure Over (p : Ends) : Prop where
  requests : ∀ r < p.ctx.answers.next, (p.ctx.pollRequest r).1 ≠ none
  later : ∀ stype, ∃ err,
    ((p.ctx.newStreamHandle stype).pollRequest p.ctx.answers.next).1 = some (.error err)
  connection : p.ctx.pollConnection.1 ≠ none
  created : p.ctx.pollCreated.1 ≠ none
  streams : ∀ (k : StreamRef) (en : Entry) (s : Streams.Stream), p.ctx.streams[k]? = some en →
    en.pair.stream = some s → en.pair.Abandoned s

/-- When the context was dropped, nobody waits. -/
theorem over_of_dropped {es : List Event} (hrun : (new isClient).run es = some p)
    (hgone : p.alive = false) : p.Over := by
  have h : p.ctx.Owes false := by
    rw [← hgone]
    exact Trace.run_keeps (P := fun p : Ends => p.ctx.Owes p.alive)
      (fun _ _ _ _ h hstep => step_owes h hstep) new_owes hrun
  refine ⟨fun r hr => ?_, fun stype => ?_, ?_, ?_, fun k en s hk hs => ?_⟩
  · have hpend : (p.ctx.answers.cell r).pending = false := by
      by_contra hp
      have hmem := h.queued r hr (by simpa using hp)
      simp [h.empty rfl] at hmem
    exact pollRequest_ne_none hpend
  · rcases newStreamHandle_spec p.ctx stype with ⟨ho, -⟩ | ⟨-, hc⟩
    · exact absurd ((h.shut rfl).symm.trans ho) (by simp)
    · refine ⟨p.ctx.recvCreateStream.errorState.getD ErrorKind.unknown, ?_⟩
      rw [hc, Context.pollRequest]
      simp only [Store.modify_cell_self, Store.alloc_cell_self]
      rfl
  · have hend : p.ctx.sendMsg.isEnded = true := by simp [Chan.isEnded, h.senders]
    exact pollConnection_ne_none hend
  · exact pollCreated_ne_none (h.created rfl)
  · have hen := List.mem_of_getElem? hk
    exact Streams.Pair.abandoned_of_run ((run_sound hrun).2 en hen) (h.streams rfl en hen) hs

/-- **Nothing waits for a context that is gone.** In every run in which the event loop has dropped
the context of the connection: each request that was made has an answer or an error, and one made
now fails; the `Connection` has a message or has ended; the future of the connect request has
resolved; and every `Stream` has something to tell, and can neither send nor be reset. -/
theorem nothing_waits {es : List Event} (hrun : (new isClient).run es = some p)
    (hgone : p.alive = false) :
    (∀ r < p.ctx.answers.next, (p.ctx.pollRequest r).1 ≠ none) ∧
      (∀ stype, ∃ err, ((p.ctx.newStreamHandle stype).pollRequest p.ctx.answers.next).1 =
        some (.error err)) ∧
      p.ctx.pollConnection.1 ≠ none ∧ p.ctx.pollCreated.1 ≠ none ∧
      ∀ (k : StreamRef) (en : Entry) (s : Streams.Stream), p.ctx.streams[k]? = some en →
        en.pair.stream = some s → en.pair.Abandoned s := by
  have h := over_of_dropped hrun hgone
  exact ⟨h.requests, h.later, h.connection, h.created, h.streams⟩

/-- A request, a stream of the peer and the `Connection` itself, when the context is dropped. -/
theorem nothing_waits_of_drop : ∃ p en s, (new false).run
      [.callback (.stream 4 (.data [1] .other)), .newStream .bidirectional, .drop] = some p ∧
      (p.ctx.pollRequest 0).1 ≠ none ∧ p.ctx.pollConnection.1 ≠ none ∧
      p.ctx.streams[0]? = some en ∧ en.pair.stream = some s ∧ en.pair.Abandoned s := by
  obtain ⟨hr, -, hc, -, hs⟩ := @nothing_waits _ false
    [.callback (.stream 4 (.data [1] .other)), .newStream .bidirectional, .drop] rfl rfl
  exact ⟨_, _, _, rfl, hr 0 (by decide), hc, rfl, rfl, hs 0 _ _ rfl rfl⟩

end Ends

end Connections

end PicoquicRs
