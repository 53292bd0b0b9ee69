import PicoquicRs.Transfer.Intact

/-!
# When sending is refused

An application that has the `Stream` of a half it may send on can send as long as nothing
went wrong: `start_send` fails only if the application itself has asked for a reset, its
connection was lost, or the peer has dropped its own `Stream`
(`PicoquicRs.Transfer.Link.refused_of_run`). It is not enough that the context of the stream
was told to stop; the context may also be gone, as a context drops itself once it counts both
halves as finished, and the sending half counts as finished for these causes only
(`PicoquicRs.Streams.Pair.Commits.cause_step`).
-/

namespace PicoquicRs

namespace Streams

open Futures Context

/-- The newest receiver is open. -/
theorem Chained.isOpen_cur {h : Store (ErrorChan Bytes)} {a r : ChanRef} {q : List Message}
    (hc : Chained h (some a) r q) : (h.cell a).chan.isOpen = true := by
  induction q generalizing r with
  | nil =>
    obtain ⟨ho, rfl, -⟩ := hc
    exact ho
  | cons m q ih =>
    cases m with
    | swapSendData n o => exact ih hc.2.2.2.2
    | _ => exact ih hc

namespace Pair

variable {p p' : Pair} {aborted stopped lost : Prop} {e : Event}

/-- While the context has a receiver, an item is accepted, or there is no room. -/
theorem Linked.startSend_ok (h : p.Linked) {s : Stream} (hs : p.stream = some s)
    (hn : p.ctx.sendData ≠ none) (item : Bytes) (room : Bool) :
    ∃ a, (s.startSend p.ctx item room).1 = .ok a := by
  obtain ⟨r, hr⟩ := Option.ne_none_iff_exists'.mp (h.paired s hs hn)
  obtain ⟨sw, hsw⟩ := Option.ne_none_iff_exists'.mp hn
  have hchain := h.ctx.chain sw hsw
  have hcur : p.cur = some r := by simp [cur, hs, hr]
  rw [hcur] at hchain
  exact startSend_of_open hr hchain.isOpen_cur item room

namespace Commits

/-- A sending half that is finished was given up for a cause. -/
theorem of_finished (h : p.Commits aborted stopped) (ha : p.alive = true)
    (hst : p.ctx.stopSendingOrFinSent = true) : p.stream = none ∨ aborted ∨ stopped := by
  rcases h.ctx.order with h₀ | ⟨-, -, hreset | hs | hgone⟩
  · refine Or.inl ?_
    by_cases hs : p.ctx.sendData = none
    · exact (h₀.ended (Or.inr hs)).1
    · exact h.closed hs (h₀.done hst hs).1
  · exact (h.ctx.reset hreset).elim (fun h => Or.inr (Or.inl h)) fun h => Or.inl h.1
  · exact Or.inr (Or.inr hs)
  · simp [ha] at hgone

/-- **A context is gone only for a cause**: its `Stream` was dropped, the sending half was given
up, or the connection was lost. -/
theorem cause_step (h : p.Commits aborted stopped)
    (hcause : p.alive = false → p.stream = none ∨ aborted ∨ stopped ∨ lost)
    (hempty : p.swapsEmpty e = true) (hstep : p.step e = some p') (ha' : p'.alive = false) :
    p'.stream = none ∨ aborted ∨ stopped ∨ lost ∨ e = .dropContext := by
  cases ha : p.alive with
  | false =>
    rcases hcause ha with hs | hab | hst | hl
    · exact Or.inl (step_of_stream_eq_none hs hstep).1
    · exact Or.inr (Or.inl hab)
    · exact Or.inr (Or.inr (Or.inl hst))
    · exact Or.inr (Or.inr (Or.inr (Or.inl hl)))
  | true =>
    have hkeep : p'.alive = p.alive → False := fun h => by simp [h, ha] at ha'
    rcases step_cases hstep with ⟨s, -, -, hstep⟩ | ⟨hat, -, hstep⟩ | ⟨rfl, -⟩
    · exact (hkeep (stepStream_alive hstep)).elim
    · cases e with
      | dropContext => exact Or.inr (Or.inr (Or.inr (Or.inr rfl)))
      | poll =>
        obtain ⟨r, c, hc, hk, h'⟩ := h.ctx.pollControlMsg h.linked.ctx
          (by simpa [swapsEmpty] using hempty)
        have h₁ : { p with ctx := c }.Commits aborted stopped := ⟨h.linked.of_kept hk rfl rfl, h'⟩
        have h₂ : { p with ctx := c.pollSendData }.Commits aborted stopped :=
          ⟨h₁.linked.of_kept (pollSendData_kept h₁.linked.ctx) rfl rfl,
            h₁.ctx.pollSendData h₁.linked.ctx h₁.closed⟩
        obtain rfl := Option.some.inj ((stepContext_poll hc).symm.trans hstep)
        split at ha'
        · rename_i hfin
          rw [if_pos hfin]
          exact (h₂.of_finished ha hfin.1).imp id fun h => h.imp_right Or.inl
        · simp [ha] at ha'
      | callback cb =>
        obtain ⟨c, -, hstep⟩ := Option.bind_eq_some_iff.mp hstep
        exact (hkeep (Option.some.inj hstep ▸ rfl)).elim
      | pollControlMsg =>
        obtain ⟨c, -, hstep⟩ := Option.bind_eq_some_iff.mp hstep
        exact (hkeep (Option.some.inj hstep ▸ rfl)).elim
      | _ => exact (hkeep (Option.some.inj hstep ▸ rfl)).elim
    · exact (hkeep rfl).elim

/-- **What was refused was refused for a cause.** -/
theorem of_refused (h : p.Commits aborted stopped)
    (hcause : p.alive = false → p.stream = none ∨ aborted ∨ stopped ∨ lost) {s : Stream}
    (hs : p.stream = some s) {item : Bytes} {room : Bool} {err : Error}
    (herr : (s.startSend p.ctx item room).1 = .error err) : aborted ∨ stopped ∨ lost := by
  by_cases hn : p.ctx.sendData = none
  · rcases h.ctx.order with h₀ | ⟨-, -, hreset | hst | hgone⟩
    · have := (h₀.ended (Or.inr hn)).1
      simp [hs] at this
    · refine (h.ctx.reset hreset).imp id fun h => ?_
      simp [hs] at h
    · exact Or.inr (Or.inl hst)
    · exact (hcause hgone).resolve_left (by simp [hs])
  · obtain ⟨a, ha⟩ := h.linked.startSend_ok hs hn item room
    simp [ha] at herr

end Commits

end Pair

end Streams

namespace Transfer

open Streams

namespace Link

variable {i : Side} {l l' : Link} {id : Id} {es : List Event}

/-- The endpoint `j` saw an event of a kind. -/
def Saw (j : Side) (kind : Streams.Event → Bool) (es : List Event) : Prop :=
  ∃ e ∈ es, e.1 = j ∧ kind e.2 = true

theorem Saw.mono {j : Side} {kind : Streams.Event → Bool} (h : Saw j kind es) (e : Event) :
    Saw j kind (es ++ [e]) := by
  obtain ⟨e', he', h⟩ := h
  exact ⟨e', List.mem_append_left _ he', h⟩

theorem Saw.last {j : Side} {kind : Streams.Event → Bool} (es : List Event) {e : Streams.Event}
    (h : kind e = true) : Saw j kind (es ++ [(j, e)]) := ⟨(j, e), by simp, rfl, h⟩

/-- **The sending endpoint `i` after the events**, with the causes that ended its sending. -/
structure Explained (i : Side) (es : List Event) (l : Link) : Prop where
  commits : (l.pair i).Commits (Saw i Event.isAbort es) ((l.arrived i).stop = true)
  gone : (l.pair i).alive = false → (l.pair i).stream = none ∨ Saw i Event.isAbort es ∨
    (l.arrived i).stop = true ∨ Saw i Event.isCut es
  receives : ∃ t, (l.pair i.other).Receives t
  stops : (l.arrived i).stop = true → (l.wire i.other).stop = true

namespace Explained

/-- **Every step keeps the causes.** -/
theorem step (h : Explained i es l) {e : Event} (hcarry : l.carries e) (hswap : l.swapsEmpty i e)
    (hstep : l.step e = some l') : Explained i (es ++ [e]) l' := by
  obtain ⟨t, hr⟩ := h.receives
  have hstops := stop_step hr.linked h.stops hcarry hstep
  obtain ⟨hp, harr, hpo, harro⟩ := step_eq_some hstep
  obtain ⟨j, e⟩ := e
  by_cases hj : j = i
  · subst hj
    have hstop : (l'.arrived j).stop = true ↔ (l.arrived j).stop = true ∨ e.isStop = true := by
      rw [harr]
      exact Wire.after_stop
    refine ⟨(h.commits.step (hswap rfl) hp).mono ?_ hstop.mpr, fun ha' => ?_, ⟨t, hpo ▸ hr⟩, hstops⟩
    · rintro (hab | ⟨-, hab⟩)
      · exact hab.mono _
      · exact .last es hab
    · rcases h.commits.cause_step h.gone (hswap rfl) hp ha' with hs | hab | hst | hl | rfl
      · exact Or.inl hs
      · exact Or.inr (Or.inl (hab.mono _))
      · exact Or.inr (Or.inr (Or.inl (hstop.mpr (Or.inl hst))))
      · exact Or.inr (Or.inr (Or.inr (hl.mono _)))
      · exact Or.inr (Or.inr (Or.inr (.last es rfl)))
  · obtain rfl := Side.eq_other_of_ne hj
    simp only [Side.other_other] at hpo harro
    refine ⟨?_, fun ha' => ?_, ⟨_, hr.step hp⟩, hstops⟩
    · rw [hpo, harro]
      exact h.commits.mono (fun h => h.mono _) fun h => h
    · rw [hpo] at ha' ⊢
      rw [harro]
      exact (h.gone ha').imp_right
        (Or.imp (fun h => h.mono _) (Or.imp_right fun h => h.mono _))

end Explained

/-- **Sending is refused only for a cause.** In every run in which the transport keeps to its rules,
and no receiver of the endpoint that holds an item is replaced: if `start_send` fails on the
`Stream` of a half to send on, the application has asked for a reset, the connection was lost
there, or the peer has dropped its `Stream`. -/
theorem refused_of_run (h : HasSendHalf id i.isClientCon)
    (hcarry : Trace.Obeys step carries (new id) es)
    (hswap : Trace.Obeys step (fun l e => l.swapsEmpty i e) (new id) es)
    (hrun : (new id).run es = some l) {s : Stream} (hs : (l.pair i).stream = some s) {item : Bytes}
    {room : Bool} {err : Error} (herr : (s.startSend (l.pair i).ctx item room).1 = .error err) :
    (∃ e ∈ es, e.1 = i ∧ (e.2.isAbort = true ∨ e.2.isCut = true)) ∨
      (l.pair i.other).stream = none := by
  have hi : Explained i es l := by
    have hok := Trace.obeys_and.mpr ⟨hcarry, hswap⟩
    refine Trace.run_history (R := Explained i) ?_ ?_ hok hrun
    · exact fun es e l l' _ _ h hok hstep => h.step hok.1 hok.2 hstep
    · exact {
        commits := (Pair.new_commits h).mono False.elim False.elim
        gone := fun ha => by simp [new, Streams.new] at ha
        receives := ⟨[], Pair.new_receives (Side.hasRecvHalf_other.mpr h)⟩
        stops := fun hs => by simp [new, Wire.blank] at hs }
  rcases hi.commits.of_refused hi.gone hs herr with ⟨e, he, hj, hab⟩ | hst | ⟨e, he, hj, hcut⟩
  · exact Or.inl ⟨e, he, hj, Or.inl hab⟩
  · -- the reader asks to stop by dropping its `Stream`
    obtain ⟨t, hr⟩ := hi.receives
    refine Or.inr (by_contra fun hne => ?_)
    exact (Context.wire_stop _).mp (hi.stops hst) (hr.kept hne).2
  · exact Or.inl ⟨e, he, hj, Or.inr hcut⟩

/-- The server has got a byte and dropped its `Stream`, and the client is told. -/
def sendAndDrop : List Event := [(.client, .startSend [1] true), (.client, .poll),
  (.client, .callback (.prepareToSend (some zeroed) 9)), (.server, .callback (.data [1] .other)),
  (.server, .dropStream), (.server, .poll), (.client, .callback (.data [] .stopSending))]

theorem refused_of_drop : ∃ l s, (new 4).run sendAndDrop = some l ∧
    (l.pair .client).stream = some s ∧
    (s.startSend (l.pair .client).ctx [2] true).1 = .error (ErrorKind.sendError [2]) ∧
    (l.pair .server).stream = none := by
  refine ⟨_, _, rfl, rfl, rfl, ?_⟩
  exact (@refused_of_run .client _ 4 sendAndDrop (by decide) (by decide) (by decide) rfl _ rfl
    [2] true (ErrorKind.sendError [2]) rfl).resolve_left
    (by simp [sendAndDrop, Event.isAbort, Event.isCut])

end Link

end Transfer

end PicoquicRs
