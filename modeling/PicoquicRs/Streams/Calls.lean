import PicoquicRs.Streams.Effects
import PicoquicRs.Streams.Pair

/-!
# What the calls of the application do

One lemma for each call of `PicoquicRs.Streams.Stream`, and the step of a pair it is
behind. The application touches the context only through the channels they share:
it queues an item (`PicoquicRs.Streams.Context.pushData`) or a control message
(`PicoquicRs.Streams.Context.pushControl`), replaces the channel it sends on
(`PicoquicRs.Streams.Context.pushSwap`) and takes a message
(`PicoquicRs.Streams.Context.popRecv`).
-/

namespace PicoquicRs

namespace Streams

open Futures Context

namespace Context

variable (c : Context)

/-- An item was queued on the channel `r`. -/
def pushData (r : ChanRef) (item : Bytes) : Context :=
  { c with chans := c.chans.modify r fun ch => { ch with chan := ch.chan.push item } }

/-- A control message was queued. -/
def pushControl (msg : Message) : Context := { c with controlMsg := c.controlMsg.push msg }

/-- The application replaced its sender `a`, and queued the receiver of the fresh
channel. -/
def pushSwap (a : ChanRef) : Context :=
  { c with
    chans := c.chans.alloc ErrorChan.new
    controlMsg := c.controlMsg.push (.swapSendData c.chans.next a) }

/-- The application polled the channel of messages. -/
def popRecv : Context := { c with recvMsg := c.recvMsg.poll.2 }

end Context

/-! ### The functions -/

namespace Stream

variable (s : Stream) (c : Context)

/-- **An item is accepted by an open channel that has room**, and queued last;
otherwise nothing changes. -/
theorem startSend_cases (item : Bytes) (room : Bool) :
    (∃ r, s.sendData = some r ∧ (c.chans.cell r).chan.isOpen = true ∧
      s.startSend c item room = (.ok .ready, c.pushData r item)) ∨
    ((s.startSend c item room).1 ≠ .ok .ready ∧ (s.startSend c item room).2 = c) := by
  cases hs : s.sendData with
  | none =>
    refine Or.inr ⟨?_, ?_⟩ <;> simp [startSend, getSendData, hs]
  | some r =>
    have hget : s.getSendData = .ok r := by rw [getSendData, hs]
    cases ho : (c.chans.cell r).chan.isOpen with
    | false =>
      have he := ErrorChan.startSend_of_closed item room ho
      have hsame : c.chans.modify r (fun ch => (ch.startSend item room).2) = c.chans :=
        Store.modify_eq_self c.chans (by rw [he])
      have hstart : ∃ e, s.startSend c item room = (.error e, c) := by
        simp only [startSend, hget, he, hsame]
        cases (c.chans.cell r).mapErr item with
        | channel e item => exact ⟨e, rfl⟩
        | normal item => exact ⟨_, rfl⟩
      obtain ⟨e, hstart⟩ := hstart
      exact Or.inr ⟨by simp [hstart], by rw [hstart]⟩
    | true =>
      cases room with
      | false =>
        have he : (c.chans.cell r).startSend item false =
            (.ok (.notReady item), c.chans.cell r) := by
          simp [ErrorChan.startSend, Chan.startSend, ho]
        have hsame : c.chans.modify r (fun ch => (ch.startSend item false).2) = c.chans :=
          Store.modify_eq_self c.chans (by rw [he])
        refine Or.inr ⟨?_, ?_⟩
        · simp [startSend, hget, he]
        · simp [startSend, hget, he, hsame]
      | true =>
        refine Or.inl ⟨r, rfl, ho, ?_⟩
        have he : (c.chans.cell r).startSend item true =
            (.ok .ready, { c.chans.cell r with chan := (c.chans.cell r).chan.push item }) := by
          simp [ErrorChan.startSend, Chan.startSend, ho]
        have hpush := Store.modify_congr (h := c.chans) (r := r)
          (f := fun ch => (ch.startSend item true).2)
          (g := fun ch => { ch with chan := ch.chan.push item }) (by rw [he])
        simp [startSend, hget, he, hpush, Context.pushData]

theorem reset_cases :
    (c.controlMsg.isOpen = true ∧ (Stream.reset c).2 = c.pushControl .reset) ∨
    (c.controlMsg.isOpen = false ∧ (Stream.reset c).2 = c) := by
  cases ho : c.controlMsg.isOpen with
  | true =>
    exact Or.inl ⟨rfl, by simp [reset, Chan.unboundedSend_of_open ho, Context.pushControl]⟩
  | false => exact Or.inr ⟨rfl, by simp [reset, Chan.unboundedSend_of_closed ho]⟩

/-- A stream that may send swaps its channel for a fresh one, and tells the context
about it as long as that one lives. -/
theorem setSendChannelSize_cases :
    (s.sendData = none ∧ s.setSendChannelSize c = (s, c)) ∨
    ∃ a c', s.sendData = some a ∧
      s.setSendChannelSize c = ({ s with sendData := some c.chans.next }, c') ∧
      ((c.controlMsg.isOpen = true ∧ c' = c.pushSwap a) ∨
        (c.controlMsg.isOpen = false ∧ ∃ chans, c' = { c with chans })) := by
  cases hs : s.sendData with
  | none => exact Or.inl ⟨rfl, by rw [setSendChannelSize, hs]⟩
  | some a =>
    cases ho : c.controlMsg.isOpen with
    | true =>
      refine Or.inr ⟨a, _, rfl, by rw [setSendChannelSize, hs], Or.inl ⟨rfl, ?_⟩⟩
      simp only [Chan.unboundedSend_of_open ho, Context.pushSwap]
    | false =>
      refine Or.inr ⟨a, _, rfl, by rw [setSendChannelSize, hs], Or.inr ⟨rfl, ?_⟩⟩
      simp only [Chan.unboundedSend_of_closed ho]
      exact ⟨_, rfl⟩

/-- What `Stream::poll` makes of a message. -/
def outcome (isReset : Bool) : Message → Outcome
  | .recvData d => .item d
  | .error err => .error err
  | .reset => .none true
  | .close | .swapSendData .. => .none isReset

/-- **`Stream::poll` takes one message**, and panics on `SwapSendData` only. -/
theorem poll_cases (hq : ∀ n o, Message.swapSendData n o ∉ c.recvMsg.queue) :
    (c.recvMsg.queue = [] ∧ c.recvMsg.isEnded = true ∧
      s.poll c = some (some (.none s.streamReset), s, c.popRecv)) ∨
    (c.recvMsg.queue = [] ∧ c.recvMsg.isEnded = false ∧
      s.poll c = some (none, s, c.popRecv)) ∨
    ∃ m q, c.recvMsg.queue = m :: q ∧
      s.poll c = some (some (outcome s.streamReset m),
        { s with streamReset := s.streamReset || m == .reset },
        c.popRecv) := by
  cases hmsgs : c.recvMsg.queue with
  | nil =>
    cases he : c.recvMsg.isEnded with
    | true => exact Or.inl ⟨rfl, rfl, by rw [poll, Context.popRecv, Chan.poll_of_ended hmsgs he]⟩
    | false =>
      exact Or.inr (Or.inl ⟨rfl, rfl, by rw [poll, Context.popRecv, Chan.poll_of_waiting hmsgs he]⟩)
  | cons m q =>
    refine Or.inr (Or.inr ⟨m, q, rfl, ?_⟩)
    rw [poll, Context.popRecv, Chan.poll_of_cons hmsgs]
    cases m with
    | swapSendData n o => exact absurd (hmsgs ▸ List.mem_cons_self) (hq n o)
    | reset => simp [outcome]
    | _ => simp [outcome, beq_eq_decide]

/-- All that `Stream::poll` does to the context is to take a message. -/
theorem poll_popRecv {o : Option Outcome} {s' : Stream} {c c' : Context}
    (h : s.poll c = some (o, s', c')) : c' = c.popRecv := by
  obtain ⟨a, q, hq⟩ : ∃ a q, c.recvMsg.poll = (a, q) := ⟨_, _, rfl⟩
  have hpop : c.popRecv = { c with recvMsg := q } := by rw [popRecv, hq]
  rw [hpop]
  simp only [poll, hq] at h
  cases a with
  | notReady => exact (Prod.mk.inj (Prod.mk.inj (Option.some.inj h)).2).2.symm
  | ready msg =>
    simp only at h
    split at h
    all_goals first
      | exact (Prod.mk.inj (Prod.mk.inj (Option.some.inj h)).2).2.symm
      | exact absurd h (by simp)

/-- However it answers, `Stream::poll` leaves the sender alone. -/
theorem poll_frame (hq : ∀ n o, Message.swapSendData n o ∉ c.recvMsg.queue) :
    ∃ o s', s.poll c = some (o, s', c.popRecv) ∧
      s'.sendData = s.sendData ∧ s'.id = s.id := by
  rcases poll_cases s c hq with ⟨-, -, h⟩ | ⟨-, -, h⟩ | ⟨m, q, -, h⟩ <;>
    exact ⟨_, _, h, rfl, rfl⟩

end Stream

/-! ### The steps -/

namespace Pair

variable {p : Pair} {s : Stream}

/-- **A step is one at an end that is there**, or is void. -/
theorem step_cases {p' : Pair} {e : Event} (h : p.step e = some p') :
    (∃ s, e.atStream = true ∧ p.stream = some s ∧ p.stepStream s e = some p') ∨
    (e.atStream = false ∧ p.alive = true ∧ p.stepContext e = some p') ∨
    (p' = p ∧ (e.atStream = true → p.stream = none) ∧ (e.atStream = false → p.alive = false)) := by
  rw [step] at h
  cases he : e.atStream with
  | true =>
    rw [he, if_pos rfl] at h
    cases hs : p.stream with
    | none => exact Or.inr (Or.inr ⟨by simpa [hs] using h.symm, fun _ => rfl, by simp⟩)
    | some s => exact Or.inl ⟨s, rfl, rfl, by simpa only [hs] using h⟩
  | false =>
    rw [he, if_neg Bool.false_ne_true] at h
    cases ha : p.alive with
    | true => exact Or.inr (Or.inl ⟨rfl, rfl, by simpa [ha] using h⟩)
    | false => exact Or.inr (Or.inr ⟨by simpa [ha] using h.symm, by simp, fun _ => rfl⟩)

theorem stepStream_startSend (item : Bytes) (room : Bool) :
    (∃ r, s.sendData = some r ∧ (p.ctx.chans.cell r).chan.isOpen = true ∧
      p.stepStream s (.startSend item room) =
        some { p with ctx := p.ctx.pushData r item, accepted := p.accepted ++ [item] }) ∨
    p.stepStream s (.startSend item room) = some p := by
  rcases Stream.startSend_cases s p.ctx item room with ⟨r, hr, ho, hstart⟩ | ⟨hne, hc⟩
  · exact Or.inl ⟨r, hr, ho, by simp only [stepStream, hstart]⟩
  · exact Or.inr (by simp only [stepStream, hc])

theorem stepStream_setSendChannelSize (hs : p.stream = some s) :
    (s.sendData = none ∧ p.stepStream s .setSendChannelSize = some p) ∨
    ∃ a c', s.sendData = some a ∧
      p.stepStream s .setSendChannelSize =
        some { p with stream := some { s with sendData := some p.ctx.chans.next }, ctx := c' } ∧
      ((p.ctx.controlMsg.isOpen = true ∧ c' = p.ctx.pushSwap a) ∨
        (p.ctx.controlMsg.isOpen = false ∧ ∃ chans, c' = { p.ctx with chans })) := by
  rcases Stream.setSendChannelSize_cases s p.ctx with ⟨hn, h⟩ | ⟨a, c', ha, h, hc'⟩
  · exact Or.inl ⟨hn, by simp only [stepStream, h, ← hs]⟩
  · exact Or.inr ⟨a, c', ha, by simp only [stepStream, h], hc'⟩

theorem stepStream_reset :
    (p.ctx.controlMsg.isOpen = true ∧
      p.stepStream s .reset = some { p with ctx := p.ctx.pushControl .reset }) ∨
    (p.ctx.controlMsg.isOpen = false ∧ p.stepStream s .reset = some p) := by
  rcases Stream.reset_cases p.ctx with ⟨ho, h⟩ | ⟨ho, h⟩
  · exact Or.inl ⟨ho, by simp only [stepStream, h]⟩
  · exact Or.inr ⟨ho, by simp only [stepStream, h]⟩

theorem stepStream_pollStream {o : Option Outcome} {s' : Stream} {c' : Context}
    (h : s.poll p.ctx = some (o, s', c')) :
    p.stepStream s .pollStream =
      some { p with stream := some s', ctx := c', outcomes := p.outcomes ++ o.toList } := by
  simp only [stepStream, h, Option.bind_eq_bind, Option.bind_some]

theorem stepContext_callback {cb : Callback} {c' : Context}
    (h : p.ctx.handleCallback cb = some c') :
    p.stepContext (.callback cb) = some { p with ctx := c' } := by
  simp only [stepContext, h, Option.bind_eq_bind, Option.bind_some]

theorem stepContext_pollControlMsg {r : Async Unit} {c' : Context}
    (h : p.ctx.pollControlMsg = some (r, c')) :
    p.stepContext .pollControlMsg = some { p with ctx := c' } := by
  simp only [stepContext, h, Option.bind_eq_bind, Option.bind_some]

/-- The context is polled for control messages, then for data, and dropped when both
sides are finished. -/
theorem stepContext_poll {r : Async Unit} {c₁ : Context}
    (h : p.ctx.pollControlMsg = some (r, c₁)) :
    p.stepContext .poll = some (
      if c₁.pollSendData.stopSendingOrFinSent = true ∧
        c₁.pollSendData.finReceivedOrRecvMsgDropped = true then
        { p with ctx := c₁.pollSendData.drop, alive := false }
      else { p with ctx := c₁.pollSendData }) := by
  by_cases hfin : c₁.pollSendData.stopSendingOrFinSent = true ∧
      c₁.pollSendData.finReceivedOrRecvMsgDropped = true
  · simp only [stepContext, poll_of_pollControlMsg h, if_pos hfin, Option.bind_eq_bind,
      Option.bind_some]
  · simp only [stepContext, poll_of_pollControlMsg h, if_neg hfin, Option.bind_eq_bind,
      Option.bind_some]

/-- **The application does not call into picoquic.** -/
theorem stepStream_calls {p' : Pair} {e : Event} (hs : p.stream = some s)
    (h : p.stepStream s e = some p') : p'.ctx.calls = p.ctx.calls := by
  have hvoid : some p = some p' → p'.ctx.calls = p.ctx.calls := fun h => by
    obtain rfl := Option.some.inj h
    rfl
  cases e with
  | startSend item room =>
    rcases stepStream_startSend (p := p) (s := s) item room with ⟨r, -, -, heq⟩ | heq
    · obtain rfl := Option.some.inj (heq.symm.trans h)
      rfl
    · exact hvoid (heq.symm.trans h)
  | setSendChannelSize =>
    rcases stepStream_setSendChannelSize hs with ⟨-, heq⟩ | ⟨a, c', -, heq, hc'⟩
    · exact hvoid (heq.symm.trans h)
    · obtain rfl := Option.some.inj (heq.symm.trans h)
      rcases hc' with ⟨-, rfl⟩ | ⟨-, chans, rfl⟩ <;> rfl
  | reset =>
    rcases stepStream_reset (p := p) (s := s) with ⟨-, heq⟩ | ⟨-, heq⟩
    · obtain rfl := Option.some.inj (heq.symm.trans h)
      rfl
    · exact hvoid (heq.symm.trans h)
  | pollStream =>
    obtain ⟨⟨o, s', c'⟩, hpoll, h⟩ := Option.bind_eq_some_iff.mp h
    obtain rfl := Option.some.inj h
    obtain rfl := Stream.poll_popRecv s hpoll
    rfl
  | dropStream =>
    obtain rfl := Option.some.inj h
    rfl
  | _ => exact hvoid h

/-- The event loop neither takes what is sent nor reads what is there. -/
theorem stepContext_application {p' : Pair} {e : Event} (h : p.stepContext e = some p') :
    p'.stream = p.stream ∧ p'.outcomes = p.outcomes ∧ p'.accepted = p.accepted := by
  cases e with
  | callback cb =>
    obtain ⟨c', -, h⟩ := Option.bind_eq_some_iff.mp h
    obtain rfl := Option.some.inj h
    exact ⟨rfl, rfl, rfl⟩
  | pollControlMsg =>
    obtain ⟨c', -, h⟩ := Option.bind_eq_some_iff.mp h
    obtain rfl := Option.some.inj h
    exact ⟨rfl, rfl, rfl⟩
  | poll =>
    obtain ⟨⟨_ | _, c'⟩, -, h⟩ := Option.bind_eq_some_iff.mp h <;>
      obtain rfl := Option.some.inj h <;> exact ⟨rfl, rfl, rfl⟩
  | _ =>
    obtain rfl := Option.some.inj h
    exact ⟨rfl, rfl, rfl⟩

/-- Without its `Stream`, the application reads nothing and sends nothing. -/
theorem step_of_stream_eq_none {p' : Pair} {e : Event} (hs : p.stream = none)
    (hstep : p.step e = some p') :
    p'.stream = none ∧ p'.outcomes = p.outcomes ∧ p'.accepted = p.accepted := by
  rcases step_cases hstep with ⟨s, -, hs', -⟩ | ⟨-, -, hstep⟩ | ⟨rfl, -, -⟩
  · simp [hs] at hs'
  · obtain ⟨hs', ho, ha⟩ := stepContext_application hstep
    exact ⟨hs'.trans hs, ho, ha⟩
  · exact ⟨hs, rfl, rfl⟩

/-- The `Stream` is gone once it was dropped. -/
theorem step_dropStream {p' : Pair} (hstep : p.step .dropStream = some p') :
    p'.stream = none := by
  rcases step_cases hstep with ⟨s, -, -, hstep⟩ | ⟨hat, -, -⟩ | ⟨rfl, hs, -⟩
  · obtain rfl := Option.some.inj hstep
    rfl
  · simp [Event.atStream] at hat
  · exact hs rfl

end Pair

end Streams

end PicoquicRs
