import PicoquicRs.Streams.Halves
import PicoquicRs.Streams.Steps

/-!
# A finished half stays finished

The event loop removes a stream once both of its halves are finished, which two flags of
the context say. The flag of the receiving half is only ever set. The one of the sending
half is set in five places, and assigned in a sixth: `Context::handle_send_data` writes
there whether a `FIN` was handed over just now, whatever the flag was before.

When the peer has stopped the stream, the buffer that was being sent is still there, and
picoquic may still ask for data. The rest of the buffer is then handed over after all, and
if it does not fit, the flag is cleared (`PicoquicRs.Streams.stop_is_forgotten`). This is
the only way a half comes back (`PicoquicRs.Streams.finished_stays_finished_iff`).
-/

namespace PicoquicRs

namespace Streams

open Futures Context

namespace Context

variable {c c' c'' : Context} {cur : Option ChanRef}

/-- **What was finished is finished later on**: no flag is taken back, and a send half that
was finished has handed over nothing more. -/
structure Settled (c c' : Context) : Prop where
  stop : c.stopSendingOrFinSent = true → c'.stopSendingOrFinSent = true
  fin : c.finReceivedOrRecvMsgDropped = true → c'.finReceivedOrRecvMsgDropped = true
  bytes : c.stopSendingOrFinSent = true → c'.sentBytes = c.sentBytes

namespace Settled

theorem refl (c : Context) : Settled c c := ⟨fun h => h, fun h => h, fun _ => rfl⟩

theorem trans (h : Settled c c') (h' : Settled c' c'') : Settled c c'' where
  stop := h'.stop ∘ h.stop
  fin := h'.fin ∘ h.fin
  bytes hs := (h'.bytes (h.stop hs)).trans (h.bytes hs)

end Settled

/-- **A finished send half has no source any more**: there is nothing left in it, and
nothing will come. -/
def UsedUp (c : Context) : Prop :=
  c.stopSendingOrFinSent = true → c.source.items = [] ∧ c.source.ended = true

/-- The send half was not taken back, and what was finished is used up. -/
structure StaysFinished (c c' : Context) : Prop where
  usedUp : c'.UsedUp
  stop : c.stopSendingOrFinSent = true → c'.stopSendingOrFinSent = true
  bytes : c.stopSendingOrFinSent = true → c'.sentBytes = c.sentBytes

namespace StaysFinished

theorem refl (h : c.UsedUp) : StaysFinished c c := ⟨h, fun h => h, fun _ => rfl⟩

/-- A receiver that is given up is used up. -/
theorem giveUp (h : StaysFinished c c') (hs : c''.sendData = none)
    (hstop : c'.stopSendingOrFinSent = true → c''.stopSendingOrFinSent = true)
    (hbytes : c''.sentBytes = c'.sentBytes) : StaysFinished c c'' where
  usedUp _ := by
    rw [source_of_none hs]
    exact ⟨rfl, rfl⟩
  stop := hstop ∘ h.stop
  bytes hc := hbytes.trans (h.bytes hc)

theorem idle (h : StaysFinished c c') (hi : Idle c' c'') : StaysFinished c c'' where
  usedUp := by
    rw [UsedUp, hi.stop, hi.source]
    exact h.usedUp
  stop := by
    rw [hi.stop]
    exact h.stop
  bytes hc := hi.sentBytes.trans (h.bytes hc)

/-- Polling for data finds nothing in a finished send half. -/
theorem pollSendData (h : StaysFinished c c') (hl : c'.Linked cur) :
    StaysFinished c c'.pollSendData := by
  rcases pollSendData_cases hl.slotDistinct with
    ⟨-, hc⟩ | ⟨s, s', chans, c₁, -, -, hc₁, -, -, hsrc, hcase⟩
  · rw [hc]
    exact h
  have hstop : c₁.stopSendingOrFinSent = c'.stopSendingOrFinSent := by rw [hc₁]
  have hbytes : c₁.sentBytes = c'.sentBytes := by rw [hc₁]; rfl
  rcases hcase with ⟨buf, q, hi, hc⟩ | ⟨-, -, hc⟩ | ⟨hi, he, hc⟩
  · -- there is an item, so nothing was finished
    have hno : c'.stopSendingOrFinSent ≠ true := fun hst => by
      have := (h.usedUp hst).1
      simp [hi] at this
    have hno' : c'.pollSendData.stopSendingOrFinSent ≠ true := by
      rw [hc]
      exact hstop ▸ hno
    exact ⟨fun hst => absurd hst hno', fun hst => absurd (h.stop hst) hno,
      fun hst => absurd (h.stop hst) hno⟩
  · obtain ⟨chans', -, hdrop⟩ := handleSendDataDropped_spec c₁
    rw [← hc] at hdrop
    refine h.giveUp ?_ ?_ ?_
    · rw [hdrop]
      split_ifs <;> rfl
    · rw [hdrop, ← hstop]
      split_ifs
      · exact fun _ => rfl
      · exact fun hst => hst
      · exact fun hst => hst
    · rw [hdrop, ← hbytes]
      split_ifs
      · exact (sentBytes_of_calls rfl).trans (List.append_nil _)
      · exact (sentBytes_of_calls rfl).trans (List.append_nil _)
      · rfl
  · rw [Source.poll_of_nil hi] at hsrc
    rw [hc]
    refine ⟨?_, ?_, fun hst => hbytes.trans (h.bytes hst)⟩
    · rw [UsedUp, hstop, hsrc]
      exact h.usedUp
    · rw [hstop]
      exact h.stop

/-- A control message finishes a send half, or swaps the receiver of one that is not
finished. -/
theorem handleControlMsg (h : StaysFinished c c') (hl : c'.Linked cur) {msg : Message}
    {q : List Message} (hq : c'.controlMsg.queue = msg :: q)
    (hm : { c' with controlMsg := c'.controlMsg.poll.2 }.handleControlMsg msg = some c'') :
    StaysFinished c c'' := by
  rcases hl.control msg (by simp [hq]) with rfl | ⟨n, o, rfl⟩
  · obtain ⟨chans, hr, -⟩ := reset_spec { c' with controlMsg := c'.controlMsg.poll.2 }
    obtain rfl := Option.some.inj hm
    rw [hr]
    exact h.giveUp rfl (fun _ => rfl) ((sentBytes_of_calls rfl).trans (List.append_nil _))
  · cases hs : c'.sendData with
    | none =>
      obtain ⟨chans, hsw⟩ := handleControlMsg_swap_of_none
        (c := { c' with controlMsg := c'.controlMsg.poll.2 }) hs n o
      obtain rfl := Option.some.inj (hsw.symm.trans hm)
      exact h.giveUp hs (fun hst => hst) rfl
    | some s =>
      obtain ⟨c₁, hc₁, hsw⟩ := handleControlMsg_swap
        (c := { c' with controlMsg := c'.controlMsg.poll.2 }) hs n o
      obtain rfl := Option.some.inj (hc₁.symm.trans hm)
      obtain ⟨chans, hframe⟩ := hsw.frame
      -- a finished send half has ended, and no swap comes after the end
      have hno : c'.stopSendingOrFinSent ≠ true := fun hst =>
        (hl.of_ended hs (h.usedUp hst).2).2 n o (by simp [hq])
      have hno' : c₁.stopSendingOrFinSent ≠ true := by
        rw [hframe]
        exact hno
      exact ⟨fun hst => absurd hst hno', fun hst => absurd (h.stop hst) hno,
        fun hst => absurd (h.stop hst) hno⟩

end StaysFinished

/-- **A callback that asks for data.** Whatever it hands over, a send half that is finished
afterwards is used up. -/
theorem SendSpec.usedUp {n : ℕ} (hs : SendSpec c n c') : c'.UsedUp := by
  obtain ⟨sd, ch, pl, ab, hframe, -⟩ := hs.frame
  intro hstop
  have hfin : (c.source.ended && decide (c.unsent.length ≤ n)) = true := by
    rw [hframe] at hstop
    exact hstop
  rw [Bool.and_eq_true_iff, decide_eq_true_eq] at hfin
  have hact := hs.active
  rw [if_pos hfin.2] at hact
  exact ⟨hact.2, hs.ended.trans hfin.1⟩

/-- **It leaves a finished send half alone exactly if no byte of the active buffer is
left.** Else the byte is handed over, or the flag is cleared. -/
theorem SendSpec.settled_iff {n : ℕ} (hs : SendSpec c n c') (hu : c.UsedUp)
    (hst : c.stopSendingOrFinSent = true) :
    c'.stopSendingOrFinSent = true ∧ c'.sentBytes = c.sentBytes ↔ c.activeBytes = [] := by
  obtain ⟨sd, ch, pl, ab, hframe, -⟩ := hs.frame
  obtain ⟨hitems, hended⟩ := hu hst
  have hun : c.unsent = c.activeBytes := by
    rw [Context.unsent, hitems, List.flatten_nil, List.append_nil]
  have hstop : c'.stopSendingOrFinSent = decide (c.activeBytes.length ≤ n) := by
    rw [hframe, hended, hun, Bool.true_and]
  have hbytes : c'.sentBytes = c.sentBytes ++ c.activeBytes.take n := by
    have hcalls := congrArg Context.calls hframe
    rw [sentBytes_of_calls hcalls, hun]
    rfl
  rw [hstop, hbytes, decide_eq_true_eq, List.append_right_eq_self]
  constructor
  · rintro ⟨hle, htake⟩
    rwa [List.take_of_length_le hle] at htake
  · intro hnil
    rw [hnil]
    exact ⟨Nat.zero_le _, List.take_nil⟩

end Context

/-! ### Steps and runs -/

/-- What a call says about the stream being active, when a reset is taken to end it. -/
def Call.activityOrReset : Call → Option Bool
  | .resetStream _ => some false
  | x => x.activity

namespace Pair

variable {p p' : Pair} {e : Event}

/-- **Picoquic asks for data** only while the stream is active, and provides a buffer. A
reset makes a stream inactive, and being stopped by the peer does not. -/
def asksWhileActive (p : Pair) : Event → Bool
  | .callback (.prepareToSend dest _) =>
    dest.isSome && (p.ctx.calls.filterMap Call.activityOrReset).getLastD false
  | _ => true

/-- **Nothing is held back**: picoquic does not ask for data when the send half is finished
and bytes of the active buffer are left. -/
def nothingHeldBack (p : Pair) : Event → Bool
  | .callback (.prepareToSend _ _) =>
    !p.alive || !p.ctx.stopSendingOrFinSent || p.ctx.activeBytes.isEmpty
  | _ => true

/-- **After any step a finished send half is used up**, and a step that hands over nothing
held back takes nothing back. -/
theorem staysFinished_step (hl : p.Linked) (hu : p.ctx.UsedUp) (hstep : p.step e = some p') :
    p'.ctx.UsedUp ∧ (p.nothingHeldBack e = true → StaysFinished p.ctx p'.ctx) := by
  have hlift : ∀ c c' : Context, (∀ b, StaysFinished b c → StaysFinished b c') →
      c.UsedUp ∧ (p.nothingHeldBack e = true → StaysFinished p.ctx c) →
      c'.UsedUp ∧ (p.nothingHeldBack e = true → StaysFinished p.ctx c') := fun c c' hf h =>
    ⟨(hf c (.refl h.1)).usedUp, fun hok => hf p.ctx (h.2 hok)⟩
  refine hl.step_rule
    (P := fun c => c.UsedUp ∧ (p.nothingHeldBack e = true → StaysFinished p.ctx c))
    hstep ⟨hu, fun _ => .refl hu⟩ ?_ ?_ ?_ ?_ ?_ ?_ ?_
  · intro c' _ ho
    have hused : c'.UsedUp := by
      intro hst
      -- the application is gone once the source has ended
      have hnone : p.ctx.sendData = none := by
        by_contra hne
        have := (hu (ho.stop ▸ hst)).2
        simp [ho.running hne] at this
      rw [source_of_none (ho.sendData.trans hnone)]
      exact ⟨rfl, rfl⟩
    refine ⟨hused, fun _ => ⟨hused, by rw [ho.stop]; exact fun h => h, fun _ => ?_⟩⟩
    rw [sentBytes, ho.calls, sentBytes]
  · intro c c' h hi
    exact hlift c c' (fun b hb => hb.idle hi) h
  · rintro dest n c' rfl ha hs
    refine ⟨hs.usedUp, fun hok => ?_⟩
    have hset : p.ctx.stopSendingOrFinSent = true →
        c'.stopSendingOrFinSent = true ∧ c'.sentBytes = p.ctx.sentBytes := by
      intro hst
      rw [hs.settled_iff hu hst]
      simpa [nothingHeldBack, ha, hst] using hok
    exact ⟨hs.usedUp, fun hst => (hset hst).1, fun hst => (hset hst).2⟩
  · intro c chans bytes _ h _
    exact hlift c _ (fun b hb => hb.giveUp rfl (fun _ => rfl) rfl) h
  · intro c c' msg q _ hlc h hq hm
    exact hlift c c' (fun b hb => hb.handleControlMsg hlc hq hm) h
  · intro c _ hlc h
    exact hlift c _ (fun b hb => hb.pollSendData hlc) h
  · intro c recvMsg chans _ h
    exact hlift c _ (fun b hb => hb.giveUp rfl (fun hst => hst) rfl) h

/-- **A step leaves what is finished alone exactly if nothing held back is asked for.** -/
theorem settled_step_iff (hl : p.Linked) (hu : p.ctx.UsedUp) (hstep : p.step e = some p') :
    Settled p.ctx p'.ctx ↔ p.nothingHeldBack e = true := by
  constructor
  · intro hset
    cases e with
    | callback cb =>
      cases cb with
      | data bytes event => rfl
      | prepareToSend dest n =>
        by_contra hno
        simp only [nothingHeldBack, Bool.or_eq_true, Bool.not_eq_true', not_or, Bool.not_eq_false,
          List.isEmpty_iff] at hno
        obtain ⟨⟨ha, hst⟩, hheld⟩ := hno
        have hs : SendSpec p.ctx n p'.ctx := by
          rcases step_cases hstep with ⟨-, he, -⟩ | ⟨-, -, hstep⟩ | ⟨-, -, hdead⟩
          · simp [Event.atStream] at he
          · obtain ⟨c', hc, hstep⟩ := Option.bind_eq_some_iff.mp hstep
            obtain rfl := Option.some.inj hstep
            exact handleCallback_prepareToSend hl.ctx.slotDistinct hc
          · simp [hdead rfl] at ha
        exact hheld ((hs.settled_iff hu hst).mp ⟨hset.stop hst, hset.bytes hst⟩)
    | _ => rfl
  · intro hok
    have h := (staysFinished_step hl hu hstep).2 hok
    exact ⟨h.stop, (stopsOnce_step hl hstep).fin, h.bytes⟩

/-- The invariant of all runs. -/
theorem run_usedUp {id : Id} {isClientCon : Bool} {es : List Event}
    (hrun : (Streams.new id isClientCon).run es = some p) : p.Linked ∧ p.ctx.UsedUp := by
  refine Trace.run_keeps (P := fun p => p.Linked ∧ p.ctx.UsedUp)
    (fun p e _ p' h hstep => ⟨h.1.of_step hstep, (staysFinished_step h.1 h.2 hstep).1⟩)
    ⟨new_linked id isClientCon, fun hst => ?_⟩ hrun
  have hno : ¬ HasSendHalf id isClientCon := by simpa [new_stopSendingOrFinSent] using hst
  rw [source_of_none (by rw [new_sendData, if_neg hno])]
  exact ⟨rfl, rfl⟩

/-- Nothing is taken back on the way. -/
theorem run_settled {es : List Event} (h : p.Linked ∧ p.ctx.UsedUp)
    (hok : Trace.Obeys step (fun p e => p.nothingHeldBack e = true) p es)
    (hrun : p.run es = some p') : Settled p.ctx p'.ctx := by
  refine (Trace.run_preserves (P := fun p' => (p'.Linked ∧ p'.ctx.UsedUp) ∧ Settled p.ctx p'.ctx)
    ?_ ⟨h, .refl _⟩ hok hrun).2
  rintro p₁ e p₂ ⟨⟨hl, hu⟩, hset⟩ hok hstep
  exact ⟨⟨hl.of_step hstep, (staysFinished_step hl hu hstep).1⟩,
    hset.trans ((settled_step_iff hl hu hstep).mpr hok)⟩

end Pair

/-- **A finished half stays finished, exactly if nothing held back is asked for.** In every
run of a stream: between any two of its states no flag of completion is taken back, and
after the send half was finished not a byte is handed over – if and only if picoquic never
asks for data when the send half is finished and bytes of the active buffer are left. -/
theorem finished_stays_finished_iff {id : Id} {isClientCon : Bool} {es : List Event} {p : Pair}
    (hrun : (new id isClientCon).run es = some p) :
    (∀ es₁ es₂ es₃ p₁ p₂, es = es₁ ++ es₂ ++ es₃ → (new id isClientCon).run es₁ = some p₁ →
        p₁.run es₂ = some p₂ → Settled p₁.ctx p₂.ctx) ↔
      Trace.Obeys Pair.step (fun p e => p.nothingHeldBack e = true) (new id isClientCon) es := by
  constructor
  · intro h
    refine Trace.obeys_iff.mpr fun es₁ e es₂ hes p₁ hp₁ => ?_
    obtain ⟨hl, hu⟩ := Pair.run_usedUp hp₁
    -- the run goes on, so the event does not panic
    have hgo := hrun
    simp only [Pair.run] at hgo hp₁
    rw [hes, Trace.run_append, hp₁, Option.bind_some, Trace.run_cons] at hgo
    obtain ⟨p₂, hp₂, -⟩ := Option.bind_eq_some_iff.mp hgo
    refine (Pair.settled_step_iff hl hu hp₂).mp (h es₁ [e] es₂ p₁ p₂ ?_ hp₁ ?_)
    · rw [hes, List.append_assoc, List.singleton_append]
    · rw [Pair.run, Trace.run_cons_of_step hp₂, Trace.run_nil]
  · rintro hok es₁ es₂ es₃ p₁ p₂ rfl h₁ h₂
    exact Pair.run_settled (Pair.run_usedUp h₁)
      ((Trace.obeys_append.mp (Trace.obeys_append.mp hok).1).2 p₁ h₁) h₂

/-- A stream whose item was sent, and that the peer stops after the `FIN`. -/
theorem finished_stays_finished_of_fin : ∃ p, (new 4 true).run
      [.startSend [1, 2] true, .poll, .dropStream,
        .callback (.prepareToSend (some zeroed) 9), .callback (.data [] .stopSending), .poll] =
        some p ∧
      ∀ es₁ es₂ es₃ p₁ p₂,
        [.startSend [1, 2] true, .poll, .dropStream,
          .callback (.prepareToSend (some zeroed) 9), .callback (.data [] .stopSending), .poll] =
          es₁ ++ es₂ ++ es₃ →
        (new 4 true).run es₁ = some p₁ → p₁.run es₂ = some p₂ → Settled p₁.ctx p₂.ctx :=
  ⟨_, rfl, (@finished_stays_finished_iff 4 true
    [.startSend [1, 2] true, .poll, .dropStream,
      .callback (.prepareToSend (some zeroed) 9), .callback (.data [] .stopSending), .poll] _
    rfl).mpr (by decide)⟩

/-- **A stop that is forgotten.** The peer stops the stream while two bytes are waiting in
the active buffer. Picoquic asks for one byte of the stream, which is active still: the
byte is handed over, and the send half counts as unfinished again. -/
theorem stop_is_forgotten : ∃ es₁ es₂ p₁ p₂,
    Trace.Obeys Pair.step (fun p e => p.asksWhileActive e = true) (new 4 true) (es₁ ++ es₂) ∧
      (new 4 true).run es₁ = some p₁ ∧ p₁.run es₂ = some p₂ ∧
      p₁.ctx.stopSendingOrFinSent = true ∧ p₁.ctx.sentBytes = [] ∧
      p₂.ctx.stopSendingOrFinSent = false ∧ p₂.ctx.sentBytes = [1] :=
  ⟨[.startSend [1, 2] true, .poll, .callback (.data [] .stopSending)],
    [.callback (.prepareToSend (some zeroed) 1)], _, _, by decide, rfl, rfl, by decide⟩

end Streams

end PicoquicRs
