import PicoquicRs.Streams.Steps

/-!
# The control messages are watched

The event loop's end of a stream takes the control messages when it is polled, until nothing
is there. It was polled for them when it was made, too. So the task is always woken by the
next one (`PicoquicRs.Streams.Pair.run_control`): what the event loop does to the channel is
to poll it until it is empty, and only a `Stream` that is there sends on it.
-/

namespace PicoquicRs

namespace Streams

open Futures Context

namespace Context

variable {c c' : Context} {cur : Option ChanRef}

/-- **The control messages are polled until nothing is there.** -/
theorem Linked.pollControlMsg_watched (h : c.Linked cur) {r : Async Unit}
    (hc : c.pollControlMsg = some (r, c')) : c'.controlMsg.Watched := by
  obtain ⟨r', c'', hc'', hwatched⟩ := Context.pollControlMsg_rule (P := fun c => c.Linked cur)
    (Q := fun c => c.controlMsg.Watched)
    (fun c msg q hl hq => by
      obtain ⟨c₁, hc₁, hk⟩ := handleControlMsg_kept hl hq
      exact ⟨c₁, hc₁, hk.linked⟩)
    (fun c _ hq _ => by
      rw [(recvMessageDropped_effect _).frame_eq.2.2.1]
      exact Chan.watched_poll hq)
    (fun c _ hq _ => Chan.watched_poll hq) h
  obtain ⟨-, rfl⟩ := Prod.mk.inj (Option.some.inj (hc''.symm.trans hc))
  exact hwatched

/-- A callback does not come with a control message. -/
theorem Linked.handleCallback_controlMsg (h : c.Linked cur) {cb : Callback}
    (hc : c.handleCallback cb = some c') : c'.controlMsg = c.controlMsg := by
  cases cb with
  | prepareToSend dest n =>
    obtain ⟨_, _, _, _, rfl, -⟩ := (handleCallback_prepareToSend h.slotDistinct hc).frame
    rfl
  | data bytes event =>
    obtain ⟨c₁, he, -, hdata⟩ := handleCallback_data (c := c) bytes event
    obtain rfl := Option.some.inj (hdata.symm.trans hc)
    rw [← he.frame_eq.2.2.1]
    split
    · obtain ⟨chans, hclose, -⟩ := closeSendData_spec { c₁ with stopSendingOrFinSent := true }
      rw [hclose]
    · rfl

theorem handleConnectionError_controlMsg (c : Context) (err : Error) :
    (c.handleConnectionError err).controlMsg = c.controlMsg := by
  obtain ⟨c₁, chans, hc₁, hc, -⟩ := handleConnectionError_spec c err
  rw [hc, hc₁]
  exact (recvMessage_effect c _).frame_eq.2.2.1

end Context

namespace Pair

variable {p p' : Pair} {s : Stream} {e : Event}

/-- **The event loop** takes all control messages, or none, as long as it has its end. -/
theorem stepContext_control (h : p.Linked) (hstep : p.stepContext e = some p') :
    p'.alive = false ∨ p'.ctx.controlMsg = p.ctx.controlMsg ∨ p'.ctx.controlMsg.Watched := by
  cases e with
  | callback cb =>
    obtain ⟨c', hc, hstep⟩ := Option.bind_eq_some_iff.mp hstep
    obtain rfl := Option.some.inj hstep
    exact Or.inr (Or.inl (h.ctx.handleCallback_controlMsg hc))
  | pollControlMsg =>
    obtain ⟨⟨r, c'⟩, hc, hstep⟩ := Option.bind_eq_some_iff.mp hstep
    obtain rfl := Option.some.inj hstep
    exact Or.inr (Or.inr (h.ctx.pollControlMsg_watched hc))
  | pollSendData =>
    obtain rfl := Option.some.inj hstep
    exact Or.inr (Or.inl (pollSendData_controlMsg h.ctx.slotDistinct))
  | poll =>
    obtain ⟨r, c', hc', hk⟩ := pollControlMsg_kept h.ctx
    obtain rfl := Option.some.inj ((stepContext_poll hc').symm.trans hstep)
    split
    · exact Or.inl rfl
    · refine Or.inr (Or.inr ?_)
      rw [pollSendData_controlMsg hk.linked.slotDistinct]
      exact h.ctx.pollControlMsg_watched hc'
  | connectionError err =>
    obtain rfl := Option.some.inj hstep
    exact Or.inr (Or.inl (handleConnectionError_controlMsg _ err))
  | connectionClose =>
    obtain rfl := Option.some.inj hstep
    exact Or.inr (Or.inl (recvMessage_effect _ _).frame_eq.2.2.1)
  | dropContext =>
    obtain rfl := Option.some.inj hstep
    exact Or.inl rfl
  | _ =>
    obtain rfl := Option.some.inj hstep
    exact Or.inr (Or.inl rfl)

/-- **The application** sends a control message, or drops its sender with the `Stream`. -/
theorem stepStream_control (h : p.Linked) (hs : p.stream = some s)
    (hstep : p.stepStream s e = some p') :
    p'.ctx.controlMsg = p.ctx.controlMsg ∨
      (∃ msg, p.ctx.controlMsg.isOpen = true ∧ p'.ctx.controlMsg = p.ctx.controlMsg.push msg) ∨
      p'.ctx.controlMsg = p.ctx.controlMsg.dropSender := by
  cases e with
  | startSend item room =>
    rcases stepStream_startSend (p := p) (s := s) item room with ⟨r, -, -, hc⟩ | hc <;>
      obtain rfl := Option.some.inj (hc.symm.trans hstep) <;>
      exact Or.inl rfl
  | setSendChannelSize =>
    rcases stepStream_setSendChannelSize hs with
      ⟨-, hc⟩ | ⟨a, c', -, hc, ⟨ho, rfl⟩ | ⟨-, chans, rfl⟩⟩
    · obtain rfl := Option.some.inj (hc.symm.trans hstep)
      exact Or.inl rfl
    · obtain rfl := Option.some.inj (hc.symm.trans hstep)
      exact Or.inr (Or.inl ⟨_, ho, rfl⟩)
    · obtain rfl := Option.some.inj (hc.symm.trans hstep)
      exact Or.inl rfl
  | reset =>
    rcases stepStream_reset (p := p) (s := s) with ⟨ho, hc⟩ | ⟨-, hc⟩
    · obtain rfl := Option.some.inj (hc.symm.trans hstep)
      exact Or.inr (Or.inl ⟨_, ho, rfl⟩)
    · obtain rfl := Option.some.inj (hc.symm.trans hstep)
      exact Or.inl rfl
  | pollStream =>
    obtain ⟨o, s', hpoll, -⟩ := Stream.poll_frame s p.ctx h.ctx.recv
    obtain rfl := Option.some.inj ((stepStream_pollStream hpoll).symm.trans hstep)
    exact Or.inl rfl
  | dropStream =>
    obtain rfl := Option.some.inj hstep
    exact Or.inr (Or.inr rfl)
  | _ =>
    obtain rfl := Option.some.inj hstep
    exact Or.inl rfl

/-- **Every step leaves the control messages watched**, as long as the event loop has its end
of the stream. -/
theorem step_control (h : p.Linked) (hw : p.alive = true → p.ctx.controlMsg.Watched)
    (hstep : p.step e = some p') : p'.alive = true → p'.ctx.controlMsg.Watched := by
  intro ha
  rcases step_cases hstep with ⟨s, -, hs, hstep⟩ | ⟨-, hap, hstep⟩ | ⟨rfl, -⟩
  · have hap : p.alive = true := by rwa [← stepStream_alive hstep]
    rcases stepStream_control h hs hstep with hc | ⟨msg, ho, hc⟩ | hc
    · rw [hc]
      exact hw hap
    · have hends := h.ends
      simp only [Context.ends, hs, Option.isSome_some, if_true, Prod.mk.injEq] at hends
      rw [hc]
      exact (hw hap).push (by simp [Chan.isEnded, ho, hends.2.2]) msg
    · rw [hc]
      exact (hw hap).dropSender
  · rcases stepContext_control h hstep with hdead | hc | hc
    · exact absurd ha (by simp [hdead])
    · rw [hc]
      exact hw hap
    · exact hc
  · exact hw ha

/-- **In every run the control messages are watched.** -/
theorem run_control {id : Id} {isClientCon : Bool} {es : List Event}
    (hrun : (new id isClientCon).run es = some p) (ha : p.alive = true) :
    p.ctx.controlMsg.Watched := by
  refine (Trace.run_keeps (P := fun p : Pair =>
    p.Linked ∧ (p.alive = true → p.ctx.controlMsg.Watched)) ?_ ?_ hrun).2 ha
  · rintro p e - p' ⟨hl, hw⟩ hstep
    exact ⟨hl.of_step hstep, step_control hl hw hstep⟩
  · refine ⟨new_linked id isClientCon, fun _ => ?_⟩
    have hnew : (new id isClientCon).ctx.controlMsg = (Chan.new (α := Message)).poll.2 := by
      rw [Streams.new]
      rfl
    rw [hnew]
    exact Chan.watched_poll rfl

end Pair

end Streams

end PicoquicRs
