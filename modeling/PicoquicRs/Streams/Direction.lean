import PicoquicRs.Streams.ConnError
import PicoquicRs.Streams.Halves
import PicoquicRs.Streams.Steps

/-!
# The directions of a stream

A stream may be reset or marked active only by an endpoint that sends on it, and the peer
may be asked to stop only by one that receives on it: a frame for the wrong direction makes
the peer close the connection. The context gets this right by never having a receiver for
data it may not send, and by looking at the direction before it asks the peer to stop.

It does not look when the application asks for a reset. `Stream::reset` is there on every
stream, and of a stream that is only received on it makes the context call
`picoquic_reset_stream` (`PicoquicRs.Streams.reset_of_receive_only`). No other way leads to
a call in the wrong direction (`PicoquicRs.Streams.directions_kept_iff`).
-/

namespace PicoquicRs

namespace Streams

open Futures Context

namespace Call

/-- **The endpoint may make the call for the stream it is about.** -/
def Permitted (isClientCon : Bool) : Call → Prop
  | .resetStream i | .markActiveStream i => HasSendHalf i isClientCon
  | .stopSending i => HasRecvHalf i isClientCon
  | .provideStreamDataBuffer .. => True

/-- The call is about the stream. -/
def IsFor (id : Id) : Call → Prop
  | .resetStream i | .markActiveStream i | .stopSending i => i = id
  | .provideStreamDataBuffer .. => True

end Call

/-- If a connection has an error, it is one that `ffi::Connection::error` may give. -/
def Event.isKnownError : Event → Bool
  | .connectionError err => err == ErrorKind.tlsHandshakeError || err == ErrorKind.unknown
  | _ => true

namespace Context

variable {c c' c'' : Context} {cur : Option ChanRef}

/-! ### Which stream a call is about -/

/-- **The context has called into picoquic for its own stream alone.** -/
structure Grown (c c' : Context) : Prop where
  id : c'.id = c.id
  calls : ∃ extra, c'.calls = c.calls ++ extra ∧ ∀ x ∈ extra, x.IsFor c.id

namespace Grown

theorem refl (c : Context) : Grown c c := ⟨rfl, [], by simp, by simp⟩

theorem trans (h : Grown c c') (h' : Grown c' c'') : Grown c c'' := by
  obtain ⟨extra, hc, hx⟩ := h.calls
  obtain ⟨extra', hc', hx'⟩ := h'.calls
  refine ⟨h'.id.trans h.id, extra ++ extra', by rw [hc', hc, List.append_assoc], fun x hm => ?_⟩
  rcases List.mem_append.mp hm with hm | hm
  · exact hx x hm
  · rw [← h.id]
    exact hx' x hm

/-- Nothing was called. -/
theorem of_eq (hid : c'.id = c.id) (hc : c'.calls = c.calls) : Grown c c' :=
  ⟨hid, [], by rw [hc, List.append_nil], by simp⟩

/-- One call was made. -/
theorem of_call {x : Call} (hid : c'.id = c.id) (hc : c'.calls = c.calls ++ [x])
    (hx : x.IsFor c.id) : Grown c c' :=
  ⟨hid, [x], hc, by simpa using hx⟩

/-- What does not call may come first. -/
theorem after {c₁ : Context} (h : Grown c₁ c') (hid : c₁.id = c.id) (hc : c₁.calls = c.calls) :
    Grown c c' := (of_eq hid hc).trans h

/-- A call that was made stays made. -/
theorem mem_calls (h : Grown c c') {x : Call} (hm : x ∈ c.calls) : x ∈ c'.calls := by
  obtain ⟨extra, hc, -⟩ := h.calls
  rw [hc]
  exact List.mem_append_left _ hm

end Grown

theorem recvMessageDropped_grown (c : Context) : Grown c c.recvMessageDropped := by
  cases h : c.finReceivedOrRecvMsgDropped with
  | true =>
    rw [recvMessageDropped_of_true h]
    exact .refl c
  | false =>
    rw [recvMessageDropped_of_false h]
    by_cases hr : HasRecvHalf c.id c.isClientCon
    · rw [if_pos hr]
      exact .of_call rfl rfl rfl
    · rw [if_neg hr, List.append_nil]
      exact .of_eq rfl rfl

theorem recvMessage_grown (c : Context) (msg : Message) : Grown c (c.recvMessage msg) := by
  cases h : c.recvMsg.isOpen with
  | true =>
    rw [recvMessage_of_open msg h]
    exact .of_eq rfl rfl
  | false =>
    rw [recvMessage_of_closed msg h]
    exact recvMessageDropped_grown c

theorem closeSendData_grown (c : Context) : Grown c c.closeSendData := by
  obtain ⟨chans, hc, -⟩ := closeSendData_spec c
  rw [hc]
  exact .of_eq rfl rfl

theorem reset_grown (c : Context) : Grown c c.reset := by
  obtain ⟨chans, hc, -⟩ := reset_spec c
  rw [hc]
  exact .of_call rfl rfl rfl

theorem SendSpec.grown {n : ℕ} (hs : SendSpec c n c') : Grown c c' := by
  obtain ⟨sd, ch, pl, ab, hframe, -⟩ := hs.frame
  rw [hframe]
  exact .of_call rfl rfl trivial

theorem pollSendData_grown (hd : c.SlotDistinct) : Grown c c.pollSendData := by
  rcases pollSendData_cases hd with
    ⟨-, hc⟩ | ⟨s, s', chans, c₁, -, -, hc₁, -, -, -, hcase⟩
  · rw [hc]
    exact .refl c
  · have h₁ : Grown c c₁ := hc₁ ▸ .of_eq rfl rfl
    rcases hcase with ⟨buf, q, -, hc⟩ | ⟨-, -, hc⟩ | ⟨-, -, hc⟩
    · rw [hc, hc₁]
      exact .of_call rfl rfl rfl
    · obtain ⟨chans', -, hdrop⟩ := handleSendDataDropped_spec c₁
      refine h₁.trans ?_
      rw [hc, hdrop]
      split
      · exact .of_call rfl rfl rfl
      · split
        · exact .of_call rfl rfl rfl
        · exact .of_eq rfl rfl
    · rw [hc]
      exact h₁

theorem handleControlMsg_grown {msg : Message} (h : c.handleControlMsg msg = some c') :
    Grown c c' := by
  cases msg with
  | reset =>
    obtain rfl := Option.some.inj h
    exact reset_grown c
  | swapSendData n o =>
    cases hs : c.sendData with
    | none =>
      obtain ⟨chans, hsw⟩ := handleControlMsg_swap_of_none hs n o
      obtain rfl := Option.some.inj (hsw.symm.trans h)
      exact .of_eq rfl rfl
    | some s =>
      obtain ⟨c₁, hc₁, hsw⟩ := handleControlMsg_swap hs n o
      obtain rfl := Option.some.inj (hc₁.symm.trans h)
      obtain ⟨chans, hframe⟩ := hsw.frame
      rw [hframe]
      exact .of_eq rfl rfl
  | close => simp [handleControlMsg] at h
  | recvData => simp [handleControlMsg] at h
  | error => simp [handleControlMsg] at h

theorem Linked.pollControlMsg_grown (hl : c.Linked cur) :
    ∃ r c', c.pollControlMsg = some (r, c') ∧ Kept cur c c' ∧ Grown c c' := by
  obtain ⟨r, c', hc', hk⟩ := pollControlMsg_kept hl
  obtain ⟨r', c'', hc'', hg⟩ := Context.pollControlMsg_rule
    (P := fun c' => c'.Linked cur ∧ Grown c c') (Q := fun c' => Grown c c')
    (fun c' msg q h hq => by
      obtain ⟨c'', hc'', hk⟩ := handleControlMsg_kept h.1 hq
      exact ⟨c'', hc'', hk.linked,
        h.2.trans ((handleControlMsg_grown hc'').after rfl rfl)⟩)
    (fun c' h _ _ => h.2.trans ((recvMessageDropped_grown _).after rfl rfl))
    (fun c' h _ _ => h.2.trans ((Grown.refl _).after rfl rfl)) ⟨hl, .refl c⟩
  obtain ⟨rfl, rfl⟩ : r = r' ∧ c' = c'' := by simpa using hc'.symm.trans hc''
  exact ⟨r, c', hc', hk, hg⟩

theorem handleCallback_grown (hd : c.SlotDistinct) {cb : Callback}
    (h : c.handleCallback cb = some c') : Grown c c' := by
  cases cb with
  | prepareToSend dest n => exact (handleCallback_prepareToSend hd h).grown
  | data bytes event =>
    obtain ⟨c₁, hc₁⟩ : ∃ c₁, c₁ = if !bytes.isEmpty && !c.finReceivedOrRecvMsgDropped then
        c.recvMessage (.recvData bytes) else c := ⟨_, rfl⟩
    have h₁ : Grown c c₁ := by
      rw [hc₁]
      split
      · exact recvMessage_grown c _
      · exact .refl c
    simp only [handleCallback, ← hc₁] at h
    cases event with
    | streamReset =>
      obtain rfl := Option.some.inj h
      exact h₁.trans ((recvMessage_grown _ _).after rfl rfl)
    | stopSending =>
      obtain rfl := Option.some.inj h
      exact h₁.trans ((closeSendData_grown _).after rfl rfl)
    | streamFin =>
      obtain rfl := Option.some.inj h
      exact h₁.trans ((recvMessage_grown _ _).after rfl rfl)
    | other =>
      obtain rfl := Option.some.inj h
      exact h₁

theorem handleConnectionError_grown (c : Context) (err : Error) :
    Grown c (c.handleConnectionError err) := by
  obtain ⟨c₁, chans, hc₁, hc, -⟩ := handleConnectionError_spec c err
  rw [hc]
  exact (hc₁ ▸ recvMessage_grown c (.error err) : Grown c c₁).trans (.of_eq rfl rfl)

theorem drop_grown (c : Context) : Grown c c.drop := by
  obtain ⟨chans, hc⟩ := drop_spec c
  rw [hc]
  exact .of_eq rfl rfl

/-! ### A stream without a half to send on -/

/-- **The sending side has not called into picoquic**, and has no receiver. -/
structure Mute (c : Context) : Prop where
  sendData : c.sendData = none
  reset : c.resets = 0
  markActive : ∀ id, Call.markActiveStream id ∉ c.calls

namespace Mute

theorem of_eq (h : c.Mute) (hs : c'.sendData = c.sendData) (hc : c'.calls = c.calls) : c'.Mute where
  sendData := hs.trans h.sendData
  reset := by
    rw [resets, hc]
    exact h.reset
  markActive id := by
    rw [hc]
    exact h.markActive id

theorem idle (h : c.Mute) (hi : Idle c c') : c'.Mute := by
  refine ⟨hi.sendData.trans h.sendData, hi.resets.trans h.reset, fun id hm => ?_⟩
  obtain ⟨extra, hc, hx⟩ := hi.calls
  rw [hc] at hm
  rcases List.mem_append.mp hm with hm | hm
  · exact h.markActive id hm
  · obtain ⟨id', heq⟩ := hx _ hm
    simp at heq

/-- Nothing is pulled without a receiver. -/
theorem pollSendData (h : c.Mute) : c.pollSendData = c := by
  rw [Context.pollSendData, h.sendData]
  cases c.activeBuffer <;> rfl

/-- Nothing is made active by handing over data. -/
theorem sendSpec {n : ℕ} (h : c.Mute) (hs : SendSpec c n c') : c'.Mute := by
  obtain ⟨sd, ch, pl, ab, hframe, hpolled⟩ := hs.frame
  have hcalls := congrArg Context.calls hframe
  refine ⟨?_, ?_, fun id hm => ?_⟩
  · rw [hframe]
    exact Moved.of_none (h.sendData ▸ hpolled.moved)
  · rw [resets_of_calls hcalls, h.reset]
    rfl
  · rw [hcalls, List.mem_append, List.mem_singleton] at hm
    rcases hm with hm | hm
    · exact h.markActive id hm
    · simp at hm

/-- A control message other than a reset does nothing without a receiver. -/
theorem handleControlMsg (h : c.Mute) (hl : c.Linked cur) {msg : Message} {q : List Message}
    (hq : c.controlMsg.queue = msg :: q) (hno : Message.reset ∉ c.controlMsg.queue)
    (hm : { c with controlMsg := c.controlMsg.poll.2 }.handleControlMsg msg = some c') :
    c'.Mute ∧ Message.reset ∉ c'.controlMsg.queue := by
  rcases hl.control msg (by simp [hq]) with rfl | ⟨n, o, rfl⟩
  · exact absurd (by simp [hq]) hno
  · obtain ⟨chans, hsw⟩ := handleControlMsg_swap_of_none
      (c := { c with controlMsg := c.controlMsg.poll.2 }) h.sendData n o
    obtain rfl := Option.some.inj (hsw.symm.trans hm)
    refine ⟨⟨h.sendData, h.reset, h.markActive⟩, fun hmem => hno ?_⟩
    rw [Chan.poll_queue] at hmem
    exact List.mem_of_mem_tail hmem

end Mute

/-- **A reset that was asked for is made** by the next poll. -/
theorem Linked.pollControlMsg_resets (hl : c.Linked cur) (hm : Message.reset ∈ c.controlMsg.queue) :
    ∃ r c', c.pollControlMsg = some (r, c') ∧ Call.resetStream c.id ∈ c'.calls := by
  refine Context.pollControlMsg_rule
    (P := fun c' => c'.Linked cur ∧ Grown c c' ∧
      (Message.reset ∈ c'.controlMsg.queue ∨ Call.resetStream c.id ∈ c'.calls))
    ?_ ?_ ?_ ⟨hl, .refl c, Or.inl hm⟩
  · rintro c' msg q ⟨hl, hg, h⟩ hq
    obtain ⟨c'', hc'', hk⟩ := handleControlMsg_kept hl hq
    have hg' : Grown c' c'' := (handleControlMsg_grown hc'').after rfl rfl
    refine ⟨c'', hc'', hk.linked, hg.trans hg', ?_⟩
    rcases h with h | h
    · rw [hq, List.mem_cons] at h
      rcases h with rfl | h
      · obtain ⟨chans, hr, -⟩ := reset_spec { c' with controlMsg := c'.controlMsg.poll.2 }
        obtain rfl := Option.some.inj hc''
        refine Or.inr ?_
        rw [hr, ← hg.id]
        exact List.mem_append_right _ (List.mem_singleton_self _)
      · refine Or.inl ?_
        rw [handleControlMsg_controlMsg hc'', Chan.poll_queue, hq]
        exact h
    · exact Or.inr (hg'.mem_calls h)
  · rintro c' ⟨-, -, h⟩ hq -
    exact (recvMessageDropped_grown _).mem_calls (h.resolve_left (by simp [hq]))
  · rintro c' ⟨-, -, h⟩ hq -
    exact h.resolve_left (by simp [hq])

end Context

namespace Pair

variable {p p' : Pair} {s : Stream} {e : Event} {id : Id} {isClientCon : Bool}

theorem stepStream_grown (h : p.Linked) (hs : p.stream = some s) (he : e.atStream = true)
    (hstep : p.stepStream s e = some p') :
    Grown p.ctx p'.ctx ∧
      ∀ s', p'.stream = some s' → (s'.sendData = none ↔ s.sendData = none) := by
  have hsame : ∀ s', p.stream = some s' → (s'.sendData = none ↔ s.sendData = none) := by
    intro s' hs'
    rw [Option.some.inj (hs.symm.trans hs')]
  cases e with
  | startSend item room =>
    rcases stepStream_startSend (p := p) (s := s) item room with ⟨r, -, -, h'⟩ | h' <;>
      obtain rfl := Option.some.inj (h'.symm.trans hstep) <;>
      exact ⟨.of_eq rfl rfl, hsame⟩
  | setSendChannelSize =>
    rcases stepStream_setSendChannelSize hs with
      ⟨-, h'⟩ | ⟨a, c', ha, h', hc'⟩ <;>
      obtain rfl := Option.some.inj (h'.symm.trans hstep)
    · exact ⟨.refl _, hsame⟩
    · refine ⟨?_, fun s' hs' => ?_⟩
      · rcases hc' with ⟨-, rfl⟩ | ⟨-, chans, rfl⟩ <;> exact .of_eq rfl rfl
      · obtain rfl := Option.some.inj hs'
        simp [ha]
  | reset =>
    rcases stepStream_reset (p := p) (s := s) with ⟨-, h'⟩ | ⟨-, h'⟩ <;>
      obtain rfl := Option.some.inj (h'.symm.trans hstep) <;>
      exact ⟨.of_eq rfl rfl, hsame⟩
  | pollStream =>
    obtain ⟨o, s', hpoll, hsd, -⟩ := Stream.poll_frame s p.ctx h.ctx.recv
    obtain rfl := Option.some.inj ((stepStream_pollStream hpoll).symm.trans hstep)
    refine ⟨.of_eq rfl rfl, fun s'' hs'' => ?_⟩
    obtain rfl := Option.some.inj hs''
    rw [hsd]
  | dropStream =>
    obtain rfl := Option.some.inj hstep
    exact ⟨.of_eq rfl rfl, by simp⟩
  | _ => simp [Event.atStream] at he

theorem stepContext_grown (h : p.Linked) (he : e.atStream = false)
    (hstep : p.stepContext e = some p') : Grown p.ctx p'.ctx := by
  cases e with
  | callback cb =>
    obtain ⟨c', hc, hstep⟩ := Option.bind_eq_some_iff.mp hstep
    obtain rfl := Option.some.inj hstep
    exact handleCallback_grown h.ctx.slotDistinct hc
  | pollControlMsg =>
    obtain ⟨r, c', hc', -, hg⟩ := h.ctx.pollControlMsg_grown
    obtain rfl := Option.some.inj ((stepContext_pollControlMsg hc').symm.trans hstep)
    exact hg
  | pollSendData =>
    obtain rfl := Option.some.inj hstep
    exact pollSendData_grown h.ctx.slotDistinct
  | poll =>
    obtain ⟨r, c', hc', hk, hg⟩ := h.ctx.pollControlMsg_grown
    obtain rfl := Option.some.inj ((stepContext_poll hc').symm.trans hstep)
    have hg' := hg.trans (pollSendData_grown hk.linked.slotDistinct)
    split
    · exact hg'.trans (drop_grown _)
    · exact hg'
  | connectionError err =>
    obtain rfl := Option.some.inj hstep
    exact handleConnectionError_grown _ _
  | connectionClose =>
    obtain rfl := Option.some.inj hstep
    exact recvMessage_grown _ _
  | dropContext =>
    obtain rfl := Option.some.inj hstep
    exact drop_grown _
  | _ => simp [Event.atStream] at he

/-- **Every call of a step is about the stream**, and whether the application holds a sender
does not change. -/
theorem step_grown (h : p.Linked) (hstep : p.step e = some p') :
    Grown p.ctx p'.ctx ∧ ∀ s', p'.stream = some s' →
      ∃ s, p.stream = some s ∧ (s'.sendData = none ↔ s.sendData = none) := by
  rcases step_cases hstep with ⟨s, he, hs, hstep⟩ | ⟨he, -, hstep⟩ | ⟨rfl, -⟩
  · obtain ⟨hg, hsd⟩ := stepStream_grown h hs he hstep
    exact ⟨hg, fun s' hs' => ⟨s, hs, hsd s' hs'⟩⟩
  · refine ⟨stepContext_grown h he hstep, fun s' hs' => ⟨s', ?_, Iff.rfl⟩⟩
    rw [← stepContext_stream hstep, hs']
  · exact ⟨.refl _, fun s' hs' => ⟨s', hs', Iff.rfl⟩⟩

theorem run_grown {es : List Event} (hl : p.Linked) (hrun : p.run es = some p') :
    p'.Linked ∧ Grown p.ctx p'.ctx ∧ ∀ s', p'.stream = some s' →
      ∃ s, p.stream = some s ∧ (s'.sendData = none ↔ s.sendData = none) := by
  refine Trace.run_keeps (P := fun p' => p'.Linked ∧ Grown p.ctx p'.ctx ∧
      ∀ s', p'.stream = some s' → ∃ s, p.stream = some s ∧ (s'.sendData = none ↔ s.sendData = none))
    ?_ ⟨hl, .refl _, fun s hs => ⟨s, hs, Iff.rfl⟩⟩ hrun
  rintro q e - q' ⟨hq, hg, hsd⟩ hstep
  obtain ⟨hg', hsd'⟩ := step_grown hq hstep
  refine ⟨hq.of_step hstep, hg.trans hg', fun s'' hs'' => ?_⟩
  obtain ⟨s', hs', h'⟩ := hsd' s'' hs''
  obtain ⟨s, hs, h⟩ := hsd s' hs'
  exact ⟨s, hs, h'.trans h⟩

/-- **The event loop is about to find a request to reset**, and there is a half of the stream
to reset – or it finds none. -/
def resetsOwnHalf (id : Id) (isClientCon : Bool) (p : Pair) : Event → Bool
  | .poll | .pollControlMsg => !p.alive || decide (HasSendHalf id isClientCon) ||
      decide (Message.reset ∉ p.ctx.controlMsg.queue)
  | _ => true

/-- A stream without a half to send on stays mute as long as no reset is found. -/
theorem mute_step (hl : p.Linked) (hno : ¬ HasSendHalf id isClientCon) (h : p.ctx.Mute)
    (hok : p.resetsOwnHalf id isClientCon e = true) (hstep : p.step e = some p') :
    p'.ctx.Mute := by
  rcases step_cases hstep with ⟨s, he, hs, hstep⟩ | ⟨he, ha, -⟩ | ⟨rfl, -⟩
  · have ho := stepStream_outside hl hs he hstep
    exact h.of_eq ho.sendData ho.calls
  · have hq : e = .poll ∨ e = .pollControlMsg → Message.reset ∉ p.ctx.controlMsg.queue := by
      rintro (rfl | rfl) <;> simpa [resetsOwnHalf, ha, hno] using hok
    refine (hl.step_rule (P := fun c => c.Mute ∧
      (e = .poll ∨ e = .pollControlMsg → Message.reset ∉ c.controlMsg.queue)) hstep ⟨h, hq⟩
      ?_ ?_ ?_ ?_ ?_ ?_ ?_).1
    · intro c' hat
      simp [he] at hat
    · rintro c c' ⟨h, hq⟩ hi
      exact ⟨h.idle hi, fun hpoll => by rw [hi.control]; exact hq hpoll⟩
    · rintro dest n c' rfl - hs
      exact ⟨h.sendSpec hs, by simp⟩
    · rintro c chans bytes - ⟨h, hq⟩ -
      exact ⟨⟨rfl, h.reset, h.markActive⟩, hq⟩
    · rintro c c' msg q hpoll hl ⟨h, hq⟩ hmsg hc
      obtain ⟨h', hq'⟩ := h.handleControlMsg hl hmsg (hq hpoll) hc
      exact ⟨h', fun _ => hq'⟩
    · rintro c - - ⟨h, hq⟩
      rw [h.pollSendData]
      exact ⟨h, hq⟩
    · rintro c recvMsg chans - ⟨h, -⟩
      exact ⟨⟨rfl, h.reset, h.markActive⟩, fun _ => by simp [Chan.dropReceiver]⟩
  · exact h

theorem run_mute {es : List Event} (hno : ¬ HasSendHalf id isClientCon)
    (hok : Trace.Obeys step (resetsOwnHalf id isClientCon · · = true)
      (Streams.new id isClientCon) es)
    (hrun : (Streams.new id isClientCon).run es = some p) : p.ctx.Mute := by
  refine (Trace.run_preserves (P := fun p => p.Linked ∧ p.ctx.Mute) ?_
    ⟨new_linked id isClientCon, ?_, rfl, ?_⟩ hok hrun).2
  · rintro p e p' ⟨hl, h⟩ hok hstep
    exact ⟨hl.of_step hstep, mute_step hl hno h hok hstep⟩
  · rw [new_sendData, if_neg hno]
  · intro i
    simp [new_calls]

/-- **A reset that is found is made**, and never undone. -/
theorem resetStream_mem_calls {es : List Event} (hl : p.Linked) (ha : p.alive = true)
    (he : e = .poll ∨ e = .pollControlMsg) (hm : Message.reset ∈ p.ctx.controlMsg.queue)
    (hrun : p.run (e :: es) = some p') : Call.resetStream p.ctx.id ∈ p'.ctx.calls := by
  obtain ⟨q, hq, hrun⟩ := Option.bind_eq_some_iff.mp hrun
  refine (run_grown (hl.of_step hq) hrun).2.1.mem_calls ?_
  obtain ⟨r, c', hc', hreset⟩ := hl.ctx.pollControlMsg_resets hm
  rcases step_cases hq with ⟨s, hat, -⟩ | ⟨-, -, hstep⟩ | ⟨-, -, hdead⟩
  · rcases he with rfl | rfl <;> simp [Event.atStream] at hat
  · rcases he with rfl | rfl
    · obtain ⟨r', c'', hc'', hk⟩ := pollControlMsg_kept hl.ctx
      obtain ⟨rfl, rfl⟩ : r = r' ∧ c' = c'' := by simpa using hc'.symm.trans hc''
      obtain rfl := Option.some.inj ((stepContext_poll hc').symm.trans hstep)
      have hpoll := (pollSendData_grown hk.linked.slotDistinct).mem_calls hreset
      split
      · exact (drop_grown _).mem_calls hpoll
      · exact hpoll
    · obtain rfl := Option.some.inj ((stepContext_pollControlMsg hc').symm.trans hstep)
      exact hreset
  · rcases he with rfl | rfl <;> simp [hdead rfl] at ha

/-- **The errors left in the channels are those of the connection**, so the application never
hears of a direction where there is one to send in. -/
theorem run_known {es : List Event} (h : HasSendHalf id isClientCon)
    (herr : ∀ e ∈ es, e.isKnownError = true)
    (hrun : (Streams.new id isClientCon).run es = some p) :
    p.stream = none ∨ ∃ E, p.Traced E ∧ ∀ q, E q ≠ some (ErrorKind.sendOnUnidirectional : Error) := by
  refine Trace.run_keeps (P := fun p : Pair => p.stream = none ∨
      ∃ E, p.Traced E ∧ ∀ q, E q ≠ some (ErrorKind.sendOnUnidirectional : Error)) ?_
    (Or.inr ⟨_, (new_sends h).traced, by simp⟩) hrun
  rintro p e he p' hp hstep
  have hknown := herr e he
  rcases hs : p'.stream with _ | s'
  · exact Or.inl rfl
  have hrun₁ : p.run [e] = some p' := by simpa [run] using hstep
  obtain ⟨s, hs₀⟩ := run_stream hrun₁ hs
  obtain ⟨E, ht, hE⟩ := hp.resolve_left (by simp [hs₀])
  refine Or.inr ?_
  cases hconn : e.isConnectionError with
  | false => exact ⟨E, (ht.step hconn hstep).1, hE⟩
  | true =>
    obtain ⟨err, rfl⟩ : ∃ err, e = .connectionError err := by
      cases e <;> simp [Event.isConnectionError] at hconn
      exact ⟨_, rfl⟩
    rcases step_cases hstep with ⟨s, hat, -⟩ | ⟨-, ha, hstep⟩ | ⟨rfl, -⟩
    · simp [Event.atStream] at hat
    · obtain rfl := Option.some.inj hstep
      refine ⟨_, ht.connectionError ha hs₀ err, fun q => ?_⟩
      split
      · rintro heq
        obtain rfl := Option.some.inj heq
        exact absurd hknown (by decide)
      · exact hE q
    · exact ⟨E, ht, hE⟩

/-- Sending on an open channel does not fail. -/
theorem startSend_of_open {c : Context} {r : ChanRef} (hr : s.sendData = some r)
    (ho : (c.chans.cell r).chan.isOpen = true) (item : Bytes) (room : Bool) :
    ∃ a, (s.startSend c item room).1 = .ok a := by
  cases room <;>
    simp [Stream.startSend, Stream.getSendData, hr, ErrorChan.startSend, Chan.startSend, ho]

/-- **The application is told about the direction exactly where it may not send.** -/
theorem sendOnUnidirectional_iff {es : List Event} (herr : ∀ e ∈ es, e.isKnownError = true)
    (hrun : (Streams.new id isClientCon).run es = some p) (hs : p.stream = some s) :
    (∀ item room, (s.startSend p.ctx item room).1 = .error ErrorKind.sendOnUnidirectional ↔
      ¬ HasSendHalf id isClientCon) ∧
    ∀ room, s.pollComplete room = .error ErrorKind.sendOnUnidirectional ↔
      ¬ HasSendHalf id isClientCon := by
  obtain ⟨s₀, hs₀, hiff⟩ := (run_grown (new_linked id isClientCon) hrun).2.2 s hs
  obtain rfl := Option.some.inj ((new_stream id isClientCon).symm.trans hs₀)
  by_cases h : HasSendHalf id isClientCon
  · obtain ⟨r, hr⟩ : ∃ r, s.sendData = some r := by
      refine Option.ne_none_iff_exists'.mp fun hn => ?_
      simp [if_pos h] at hiff
      exact hiff hn
    obtain ⟨E, ht, hE⟩ := (run_known h herr hrun).resolve_left (by simp [hs])
    refine ⟨fun item room => iff_of_false ?_ (not_not_intro h), fun room =>
      iff_of_false ?_ (not_not_intro h)⟩
    · cases ho : (p.ctx.chans.cell r).chan.isOpen with
      | true =>
        obtain ⟨a, ha⟩ := startSend_of_open hr ho item room
        simp [ha]
      | false =>
        rw [startSend_of_closed hr ho, ht.errors]
        rintro heq
        have hdir := Except.error.inj heq
        cases hq : E r with
        | none => simp [hq] at hdir
        | some err =>
          rw [hq, Option.getD_some] at hdir
          exact hE r (hq.trans (congrArg some hdir))
    · cases room <;> simp [Stream.pollComplete, Stream.getSendData, hr]
  · have hn : s.sendData = none := by simpa [if_neg h] using hiff
    refine ⟨fun item room => iff_of_true ?_ h, fun room => iff_of_true ?_ h⟩
    · simp only [Stream.startSend, Stream.getSendData, hn]
    · simp only [Stream.pollComplete, Stream.getSendData, hn]

end Pair

/-- **The calls keep to the directions of the stream exactly if no request to reset is found
where there is no half to send on.** The application is told about the direction in any
case. -/
theorem directions_kept_iff {id : Id} {isClientCon : Bool} {es : List Event} {p : Pair}
    (hrun : (new id isClientCon).run es = some p) (herr : ∀ e ∈ es, e.isKnownError = true) :
    ((∀ x ∈ p.ctx.calls, x.Permitted isClientCon) ∧
      ∀ s, p.stream = some s →
        (∀ item room, (s.startSend p.ctx item room).1 = .error ErrorKind.sendOnUnidirectional ↔
          ¬ HasSendHalf id isClientCon) ∧
        ∀ room, s.pollComplete room = .error ErrorKind.sendOnUnidirectional ↔
          ¬ HasSendHalf id isClientCon) ↔
    Trace.Obeys Pair.step (Pair.resetsOwnHalf id isClientCon · · = true) (new id isClientCon) es := by
  obtain ⟨-, hg, -⟩ := Pair.run_grown (Pair.new_linked id isClientCon) hrun
  constructor
  · rintro ⟨hperm, -⟩
    rw [Trace.obeys_iff]
    rintro es₁ e es₂ rfl q hq
    by_contra hviol
    simp only [Pair.run, Trace.run_append, hq, Option.bind_some] at hrun
    obtain ⟨hl, hgq, -⟩ := Pair.run_grown (Pair.new_linked id isClientCon) hq
    obtain ⟨he, ha, hno, hm⟩ : (e = .poll ∨ e = .pollControlMsg) ∧ q.alive = true ∧
        ¬ HasSendHalf id isClientCon ∧ Message.reset ∈ q.ctx.controlMsg.queue := by
      cases e <;> simp_all [Pair.resetsOwnHalf]
    have hcall := hperm _ (Pair.resetStream_mem_calls hl ha he hm hrun)
    rw [hgq.id] at hcall
    exact hno hcall
  · intro hok
    refine ⟨fun x hx => ?_, fun s hs => Pair.sendOnUnidirectional_iff herr hrun hs⟩
    obtain ⟨extra, hc, hfor⟩ := hg.calls
    rw [new_calls, List.nil_append] at hc
    have hid := hfor x (hc ▸ hx)
    by_contra hno
    cases x with
    | resetStream i =>
      obtain rfl : i = id := hid
      have hmute := Pair.run_mute hno hok hrun
      exact absurd rfl (List.countP_eq_zero.mp hmute.reset _ hx)
    | markActiveStream i =>
      obtain rfl : i = id := hid
      exact (Pair.run_mute hno hok hrun).markActive i hx
    | stopSending i =>
      obtain rfl : i = id := hid
      -- the receiving side counts as finished from the start
      have hfin : (new i isClientCon).ctx.finReceivedOrRecvMsgDropped = true := by
        have hrecv : ¬ HasRecvHalf i isClientCon := hno
        rw [new_finReceivedOrRecvMsgDropped, decide_eq_false hrecv]
        rfl
      have hzero := (Pair.run_stopsOnce (Pair.new_linked i isClientCon) hrun).2.eq_of_fin hfin
      exact absurd rfl (List.countP_eq_zero.mp hzero _ hx)
    | provideStreamDataBuffer => exact hno trivial

/-- A stream that is only received on, with data, the end of it, and a sender that is swapped
in vain. -/
theorem directions_kept_of_receive_only : ∃ p, (new 3 true).run
      [.callback (.data [1, 2] .other), .setSendChannelSize, .startSend [1] true, .pollStream,
        .dropStream, .callback (.data [] .streamFin), .poll] = some p ∧
      ((∀ x ∈ p.ctx.calls, x.Permitted true) ∧
        ∀ s, p.stream = some s →
          (∀ item room, (s.startSend p.ctx item room).1 = .error ErrorKind.sendOnUnidirectional ↔
            ¬ HasSendHalf 3 true) ∧
          ∀ room, s.pollComplete room = .error ErrorKind.sendOnUnidirectional ↔
            ¬ HasSendHalf 3 true) :=
  ⟨_, rfl, (@directions_kept_iff 3 true
    [.callback (.data [1, 2] .other), .setSendChannelSize, .startSend [1] true, .pollStream,
      .dropStream, .callback (.data [] .streamFin), .poll] _ rfl (by decide)).mpr (by decide)⟩

/-- **A stream the peer sends on is reset.** The application asks for it, and the event loop
polls the context. -/
theorem reset_of_receive_only : ∃ p, (new 3 true).run [.reset, .poll] = some p ∧
    Call.resetStream 3 ∈ p.ctx.calls ∧ ¬ (Call.resetStream 3).Permitted true := by
  refine ⟨_, rfl, by decide, ?_⟩
  show ¬ HasSendHalf 3 true
  decide

end Streams

end PicoquicRs
