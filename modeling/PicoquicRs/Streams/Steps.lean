import PicoquicRs.Streams.Receive

/-!
# The rule for the steps of a stream

Whatever an event does to the sending side of a context, it does by a few actions: a
callback hands over data, the receiver is polled, a control message is handled, the
receiver is given up. `PicoquicRs.Streams.Pair.Linked.step_rule` says so once: a property
of contexts that survives each of these actions survives every step. What the
application does (`PicoquicRs.Streams.Context.Outside`) and what happens on the receiving
side leaves the sending side as it is.
-/

namespace PicoquicRs

namespace Streams

open Futures Context

namespace Context

/-- **What the application does leaves the sending side alone**, and it does something
only as long as the source of the data to send may still grow. -/
structure Outside (c c' : Context) : Prop where
  sendData : c'.sendData = c.sendData
  dataSend : c'.dataSend = c.dataSend
  stop : c'.stopSendingOrFinSent = c.stopSendingOrFinSent
  activeBuffer : c'.activeBuffer = c.activeBuffer
  calls : c'.calls = c.calls
  running : c.sendData ≠ none → c.source.ended = false

variable {c c' : Context}

/-- A callback that asks for data does what it is specified to, or panics. -/
theorem handleCallback_prepareToSend (hd : c.SlotDistinct) {dest : Option DataBuffer} {n : ℕ}
    (hc : c.handleCallback (.prepareToSend dest n) = some c') : SendSpec c n c' := by
  cases dest with
  | none => simp [handleCallback, handleSendData] at hc
  | some dest =>
    obtain ⟨c₁, hc₁, hspec⟩ := handleSendData_spec dest n hd
    obtain rfl := Option.some.inj (hc₁.symm.trans hc)
    exact hspec

/-- On a callback other than `prepare_to_send`, the receiver is given up if the peer
stops the stream. -/
theorem handleCallback_data_rule {P : Context → Prop}
    (hidle : ∀ c c', P c → Idle c c' → P c')
    {bytes : Bytes} {event : StreamEvent}
    (hstop : ∀ c chans, event = .stopSending → P c → c.GivenUp chans →
      P { c with stopSendingOrFinSent := true, sendData := none, chans })
    (h : P c) (hc : c.handleCallback (.data bytes event) = some c') : P c' := by
  obtain ⟨c₁, he, -, hdata⟩ := handleCallback_data (c := c) bytes event
  obtain rfl := Option.some.inj (hdata.symm.trans hc)
  have h₁ := hidle c c₁ h he.idle
  split
  · rename_i hevent
    obtain ⟨chans, hclose, hg⟩ := closeSendData_spec { c₁ with stopSendingOrFinSent := true }
    rw [hclose]
    exact hstop c₁ chans hevent h₁ hg
  · exact h₁

end Context

namespace Pair

variable {p p' : Pair} {s : Stream} {e : Event}

theorem stepStream_outside (h : p.Linked) (hs : p.stream = some s) (he : e.atStream = true)
    (hstep : p.stepStream s e = some p') : Outside p.ctx p'.ctx := by
  have hrun : p.ctx.sendData ≠ none → p.ctx.source.ended = false := by
    intro hne
    obtain ⟨sw, hsw⟩ := Option.ne_none_iff_exists'.mp hne
    rw [Bool.eq_false_iff]
    intro hend
    have := (h.stream_eq_none hsw hend).1
    simp [hs] at this
  cases e with
  | startSend item room =>
    rcases stepStream_startSend (p := p) (s := s) item room with ⟨r, -, -, h'⟩ | h' <;>
      obtain rfl := Option.some.inj (h'.symm.trans hstep) <;>
      exact ⟨rfl, rfl, rfl, rfl, rfl, hrun⟩
  | setSendChannelSize =>
    rcases stepStream_setSendChannelSize hs with
      ⟨-, h'⟩ | ⟨a, c', -, h', ⟨-, rfl⟩ | ⟨-, chans, rfl⟩⟩ <;>
      obtain rfl := Option.some.inj (h'.symm.trans hstep) <;>
      exact ⟨rfl, rfl, rfl, rfl, rfl, hrun⟩
  | reset =>
    rcases stepStream_reset (p := p) (s := s) with ⟨-, h'⟩ | ⟨-, h'⟩ <;>
      obtain rfl := Option.some.inj (h'.symm.trans hstep) <;>
      exact ⟨rfl, rfl, rfl, rfl, rfl, hrun⟩
  | pollStream =>
    obtain ⟨o, s', hpoll, -⟩ := Stream.poll_frame s p.ctx h.ctx.recv
    obtain rfl := Option.some.inj ((stepStream_pollStream hpoll).symm.trans hstep)
    exact ⟨rfl, rfl, rfl, rfl, rfl, hrun⟩
  | dropStream =>
    obtain rfl := Option.some.inj hstep
    exact ⟨rfl, rfl, rfl, rfl, rfl, hrun⟩
  | _ => simp [Event.atStream] at he

/-- The application does not drop the context. -/
theorem stepStream_alive (hstep : p.stepStream s e = some p') : p'.alive = p.alive := by
  cases e with
  | pollStream =>
    obtain ⟨⟨o, s', c'⟩, -, hstep⟩ := Option.bind_eq_some_iff.mp hstep
    exact Option.some.inj hstep ▸ rfl
  | _ => exact Option.some.inj hstep ▸ rfl

/-- A context that was dropped stays dropped. -/
theorem step_dropped (ha : p.alive = false) (hstep : p.step e = some p') : p'.alive = false := by
  rcases step_cases hstep with ⟨s, -, -, hstep⟩ | ⟨-, ha', -⟩ | ⟨rfl, -⟩
  · rw [stepStream_alive hstep, ha]
  · simp [ha] at ha'
  · exact ha

/-- **The rule for the steps.** A property of contexts survives a step if it survives the
actions the step may be made of. -/
theorem Linked.step_rule {P : Context → Prop} (h : p.Linked) (hstep : p.step e = some p')
    (hP : P p.ctx)
    (happ : ∀ c', e.atStream = true → Outside p.ctx c' → P c')
    (hidle : ∀ c c', P c → Idle c c' → P c')
    (hsend : ∀ dest n c', e = .callback (.prepareToSend dest n) → p.alive = true →
      SendSpec p.ctx n c' → P c')
    (hstop : ∀ c chans bytes, e = .callback (.data bytes .stopSending) → P c → c.GivenUp chans →
      P { c with stopSendingOrFinSent := true, sendData := none, chans })
    (hmsg : ∀ c c' msg q, e = .poll ∨ e = .pollControlMsg → c.Linked p.cur → P c →
      c.controlMsg.queue = msg :: q →
      { c with controlMsg := c.controlMsg.poll.2 }.handleControlMsg msg = some c' → P c')
    (hpoll : ∀ c, e = .poll ∨ e = .pollSendData → c.Linked p.cur → P c → P c.pollSendData)
    (hdrop : ∀ c recvMsg chans,
      e = .dropContext ∨
        e = .poll ∧ c.stopSendingOrFinSent = true ∧ c.finReceivedOrRecvMsgDropped = true →
      P c → P { c with
        recvMsg, controlMsg := c.controlMsg.dropReceiver, sendData := none, chans }) :
    P p'.ctx := by
  have hdrop' : ∀ c, e = .dropContext ∨
      e = .poll ∧ c.stopSendingOrFinSent = true ∧ c.finReceivedOrRecvMsgDropped = true →
      P c → P c.drop := by
    intro c hfin hc
    obtain ⟨chans, heq⟩ := drop_spec c
    rw [heq]
    exact hdrop c _ _ hfin hc
  rcases step_cases hstep with ⟨s, he, hs, hstep⟩ | ⟨he, ha, hstep⟩ | ⟨rfl, -⟩
  · exact happ _ he (stepStream_outside h hs he hstep)
  · cases e with
    | callback cb =>
      obtain ⟨c', hc, hstep⟩ := Option.bind_eq_some_iff.mp hstep
      obtain rfl := Option.some.inj hstep
      cases cb with
      | prepareToSend dest n =>
        exact hsend dest n c' rfl ha (handleCallback_prepareToSend h.ctx.slotDistinct hc)
      | data bytes event =>
        refine handleCallback_data_rule hidle (fun c chans hevent => ?_) hP hc
        exact hstop c chans bytes (by rw [hevent])
    | pollControlMsg =>
      obtain ⟨r, c', hc', -, hP'⟩ := h.ctx.pollControlMsg_rule hidle
        (fun c c' msg q hl hc hq hm => hmsg c c' msg q (Or.inr rfl) hl hc hq hm) hP
      obtain rfl := Option.some.inj ((stepContext_pollControlMsg hc').symm.trans hstep)
      exact hP'
    | pollSendData =>
      obtain rfl := Option.some.inj hstep
      exact hpoll _ (Or.inr rfl) h.ctx hP
    | poll =>
      obtain ⟨r, c', hc', hk, hP'⟩ := h.ctx.pollControlMsg_rule hidle
        (fun c c' msg q hl hc hq hm => hmsg c c' msg q (Or.inl rfl) hl hc hq hm) hP
      obtain rfl := Option.some.inj ((stepContext_poll hc').symm.trans hstep)
      have hP'' := hpoll c' (Or.inl rfl) hk.linked hP'
      split
      · rename_i hfin
        exact hdrop' _ (Or.inr ⟨rfl, hfin⟩) hP''
      · exact hP''
    | connectionError err =>
      obtain rfl := Option.some.inj hstep
      exact hidle _ _ hP (handleConnectionError_idle _ err)
    | connectionClose =>
      obtain rfl := Option.some.inj hstep
      exact hidle _ _ hP (recvMessage_effect _ _).idle
    | dropContext =>
      obtain rfl := Option.some.inj hstep
      exact hdrop' _ (Or.inl rfl) hP
    | _ => simp [Event.atStream] at he
  · exact hP

end Pair

end Streams

end PicoquicRs
