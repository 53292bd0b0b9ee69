import PicoquicRs.Streams.Halves
import PicoquicRs.Streams.Steps

/-!
# No stalled sending

Data to send moves only while somebody is due to fetch it: picoquic, if the stream is
active there, or the application, if the context waits for it. Both `Context::poll` and a
`prepare_to_send` callback pull from the same receiver and fill the same buffer, and
polling does not look at the receiver while the buffer is full. Still no data is stranded
(`PicoquicRs.Streams.no_stalled_sending`): a buffer is left over only when more was
collected than asked for, and the stream then stays active
(`PicoquicRs.Streams.Context.Fetched`).

A stream that is only received on has nothing to send, and nobody waits for it
(`PicoquicRs.Streams.receive_only_waits_for_nobody`).
-/

namespace PicoquicRs

namespace Streams

open Futures Context

namespace Context

variable {c c' : Context} {cur : Option ChanRef}

/-! ### Waiting for the application -/

/-- The last pull from the receiver answered `NotReady`, and so the task is registered
there. -/
def Registered (c : Context) : Prop :=
  ∃ s, c.sendData = some s ∧ (c.chans.cell s.activeStream).chan.registered = true

/-- **The context waits for the application**: it has nothing in hand. -/
def Waiting (c : Context) : Prop := c.activeBuffer = none ∧ c.Registered

theorem pollReceiver_registered {r : ChanRef} {h : Store (ErrorChan Bytes)}
    (hr : (pollReceiver r h).1 = .notReady) :
    ((pollReceiver r h).2.cell r).chan.registered = true := by
  simp only [pollReceiver, Store.modify_cell_self, ErrorChan.poll] at hr ⊢
  cases hq : (h.cell r).chan.queue with
  | cons a q => simp [Chan.poll_of_cons hq] at hr
  | nil =>
    cases he : (h.cell r).chan.isEnded with
    | true => simp [Chan.poll_of_ended hq he] at hr
    | false => rw [Chan.poll_of_waiting hq he]

/-- A pull that gives nothing yet leaves the task registered with the receiver that may
give something next. -/
theorem pull_registered {s : SwappableStream ChanRef} (hr : (c.pull s).1 = .notReady) :
    (c.pull s).2.Registered := by
  refine ⟨(s.poll pollReceiver c.chans).2.1, rfl, ?_⟩
  change ((s.poll pollReceiver c.chans).2.2.cell _).chan.registered = true
  change (s.poll pollReceiver c.chans).1 = .notReady at hr
  obtain ⟨r, h', hp⟩ : ∃ r h', pollReceiver s.activeStream c.chans = (r, h') := ⟨_, _, rfl⟩
  have hreg := @pollReceiver_registered s.activeStream c.chans
  rw [hp] at hreg
  rcases r with _ | _ | a <;> simp only [SwappableStream.poll, hp] at hr ⊢
  · exact hreg rfl
  · cases hn : s.swapTo with
    | none => simp [hn] at hr
    | some next =>
      rw [hn] at hr
      exact pollReceiver_registered hr
  · simp at hr

/-- The collecting loop ends in three ways: enough was collected, the end was reached, or
there is nothing more at the moment. -/
theorem collectLoop_registered {maxLength : ℕ} (fuel : ℕ) (c : Context) (size : ℕ)
    (buffers : List Bytes) (hfuel : c.source.items.length < fuel) (hd : c.SlotDistinct)
    (hsize : (collectLoop maxLength fuel c size buffers).size ≤ maxLength)
    (hfin : (collectLoop maxLength fuel c size buffers).fin = false) :
    (collectLoop maxLength fuel c size buffers).ctx.Registered := by
  induction fuel generalizing c size buffers with
  | zero => omega
  | succ fuel ih =>
    rcases Nat.lt_or_ge maxLength size with hlt | hle
    · rw [collectLoop_of_lt hlt] at hsize
      exact absurd hsize (Nat.not_le.mpr hlt)
    rw [collectLoop, if_pos hle] at hsize hfin ⊢
    cases hs : c.sendData with
    | none => simp [hs] at hfin
    | some s =>
      obtain ⟨s', chans, hc, hr, hsrc, -, hd'⟩ := pull_spec hs hd
      have hreg := @pull_registered c s
      obtain ⟨r, c₁, hp⟩ : ∃ r c₁, c.pull s = (r, c₁) := ⟨_, _, rfl⟩
      rw [hp] at hr hsrc hd' hreg
      simp only [hs, hp] at hsize hfin ⊢
      rcases r with _ | _ | buf
      · exact hreg rfl
      · simp at hfin
      · obtain ⟨q, hi⟩ := Source.poll_eq_item.mp hr.symm
        rw [Source.poll_of_cons hi] at hsrc
        refine ih c₁ _ _ ?_ hd' hsize hfin
        rw [hi, List.length_cons] at hfuel
        rw [hsrc]
        exact Nat.lt_of_succ_lt_succ hfuel

/-- **A callback that fetched less than it was asked for** leaves the task registered,
unless the end was reached. -/
theorem handleSendData_registered (hd : c.SlotDistinct) {dest : Option DataBuffer} {n : ℕ}
    (hc : c.handleSendData dest n = some c') (hlen : c.unsent.length ≤ n)
    (hend : c.source.ended = false) : c'.Registered := by
  have hspec := collectBuffersToSend_spec (c := c) n hd
  have hfuel := Nat.lt_succ_of_le (length_items_le_queued (c := c))
  have hfin : (c.collectBuffersToSend n).fin = false := by rw [hspec.fin, hend, Bool.false_and]
  have hsize : (c.collectBuffersToSend n).size ≤ n := by
    have hb := congrArg List.length hspec.bytes
    rw [List.length_append, ← hspec.size] at hb
    omega
  have hreg : (c.collectBuffersToSend n).ctx.Registered := by
    rw [collectBuffersToSend] at hfin hsize ⊢
    cases ha : c.activeBuffer with
    | none =>
      rw [ha] at hfin hsize
      exact collectLoop_registered _ _ _ _ hfuel hd hsize hfin
    | some buf =>
      rw [ha] at hfin hsize
      exact collectLoop_registered _ _ _ _ hfuel hd hsize hfin
  obtain ⟨dest', -, hc⟩ := Option.bind_eq_some_iff.mp hc
  obtain ⟨w, -, hc⟩ := Option.bind_eq_some_iff.mp hc
  obtain rfl := Option.some.inj hc
  exact hreg

/-- Polling for data that is not there yet leaves the task registered. -/
theorem pollSendData_registered (hd : c.SlotDistinct) {s : SwappableStream ChanRef}
    (ha : c.activeBuffer = none) (hs : c.sendData = some s) (hi : c.source.items = [])
    (he : c.source.ended = false) : c.pollSendData.Registered := by
  obtain ⟨-, -, -, hr, -⟩ := pull_spec hs hd
  have hreg := @pull_registered c s
  obtain ⟨r, c₁, hp⟩ : ∃ r c₁, c.pull s = (r, c₁) := ⟨_, _, rfl⟩
  rw [hp, Source.poll_of_nil hi, he, if_neg Bool.false_ne_true] at hr
  rw [hp] at hreg
  simp only at hr hreg
  simp only [pollSendData, ha, hs, hp, hr]
  exact hreg hr

/-- **A callback** gives a `FIN`, or leaves the stream active, or it has fetched less than
it was asked for. -/
theorem SendSpec.due {n : ℕ} (hs : SendSpec c n c') :
    c'.stopSendingOrFinSent = true ∧ c'.fins ≠ 0 ∨
    c'.stopSendingOrFinSent = false ∧ c'.activeInPicoquic = true ∨
    c'.stopSendingOrFinSent = false ∧ c'.activeBuffer = none ∧ c.unsent.length ≤ n ∧
      c.source.ended = false := by
  obtain ⟨sd, ch, pl, ab, hframe, -⟩ := hs.frame
  have hcalls := congrArg Context.calls hframe
  have hstop : c'.stopSendingOrFinSent =
      (c.source.ended && decide (c.unsent.length ≤ n)) := by rw [hframe]
  have hon := activeInPicoquic_of_calls hcalls
  have hfins := fins_of_calls hcalls
  simp only [Call.activity, Option.getD_some, Call.isFin] at hon hfins
  have hact := hs.active
  rcases Nat.lt_or_ge n c.unsent.length with hlt | hle
  · -- something is left, and picoquic comes back for it
    rw [decide_eq_true hlt] at hon
    rw [decide_eq_false (by omega), Bool.and_false] at hstop
    exact Or.inr (Or.inl ⟨hstop, hon⟩)
  · rw [if_pos hle] at hact
    rw [decide_eq_true hle, Bool.and_true] at hstop hfins
    cases hend : c.source.ended with
    | true =>
      rw [hend, Bool.toNat_true] at hfins
      exact Or.inl ⟨hstop.trans hend, by omega⟩
    | false => exact Or.inr (Or.inr ⟨hstop.trans hend, hact.1, hle, rfl⟩)

/-! ### What is due to be fetched -/

/-- The send half was ended: a `FIN` or a reset was given, or there is another reason. -/
def Ended (c : Context) (reason : Prop) : Prop := c.fins ≠ 0 ∨ c.resets ≠ 0 ∨ reason

/-- **The data is going to be fetched**, unless the send half was ended. -/
structure Fetched (c : Context) (reason : Prop) : Prop where
  /-- Picoquic asks for a buffer that is in hand. -/
  buffer : c.activeBuffer ≠ none → c.stopSendingOrFinSent = false → c.activeInPicoquic = true
  /-- Picoquic asks for data, or the receiver is polled. -/
  data : c.Ended reason ∨ c.stopSendingOrFinSent = false ∧
    (c.activeInPicoquic = true ∨ c.activeBuffer = none ∧ c.sendData ≠ none)

variable {reason reason' : Prop}

theorem Ended.of_calls (h : c.Ended reason) {extra : List Call}
    (hc : c'.calls = c.calls ++ extra) : c'.Ended reason := by
  have hf : c'.fins = c.fins + extra.countP Call.isFin := by
    rw [fins, hc, List.countP_append, fins]
  have hr : c'.resets = c.resets + extra.countP Call.isReset := by
    rw [resets, hc, List.countP_append, resets]
  rcases h with h | h | h
  · exact Or.inl (by omega)
  · exact Or.inr (Or.inl (by omega))
  · exact Or.inr (Or.inr h)

theorem Ended.of_eq (h : c.Ended reason) (hc : c'.calls = c.calls) : c'.Ended reason :=
  h.of_calls (hc.trans (List.append_nil _).symm)

namespace Fetched

theorem mono (h : c.Fetched reason) (himp : reason → reason') : c.Fetched reason' :=
  ⟨h.buffer, h.data.imp_left (Or.imp_right (Or.imp_right himp))⟩

/-- Nothing that matters was changed. -/
theorem of_eq (h : c.Fetched reason) (ha : c'.activeBuffer = c.activeBuffer)
    (hst : c'.stopSendingOrFinSent = c.stopSendingOrFinSent) (hcalls : c'.calls = c.calls)
    (hs : c.sendData ≠ none → c'.sendData ≠ none) : c'.Fetched reason := by
  have hon : c'.activeInPicoquic = c.activeInPicoquic := by
    rw [activeInPicoquic, hcalls, activeInPicoquic]
  refine ⟨by rw [ha, hst, hon]; exact h.buffer, ?_⟩
  rcases h.data with hend | ⟨hstop, hdue⟩
  · exact Or.inl (hend.of_eq hcalls)
  · rw [hst, hon, ha]
    exact Or.inr ⟨hstop, hdue.imp_right fun hd => ⟨hd.1, hs hd.2⟩⟩

theorem idle (h : c.Fetched reason) (hi : Idle c c') : c'.Fetched reason := by
  refine ⟨by rw [hi.activeBuffer, hi.stop, hi.activeInPicoquic]; exact h.buffer, ?_⟩
  rw [Ended, hi.fins, hi.resets, hi.stop, hi.activeInPicoquic, hi.activeBuffer, hi.sendData]
  exact h.data

/-- The send half was ended, and counts as finished. -/
theorem of_ended (h : c.Ended reason) (hst : c.stopSendingOrFinSent = true) : c.Fetched reason :=
  ⟨fun _ hno => by simp [hst] at hno, Or.inl h⟩

/-- After a callback nothing is left behind. -/
theorem of_sendSpec {n : ℕ} (hs : SendSpec c n c') : c'.Fetched reason := by
  rcases hs.due with ⟨hst, hfin⟩ | ⟨hst, hon⟩ | ⟨hst, ha, -, hend⟩
  · exact of_ended (Or.inl hfin) hst
  · exact ⟨fun _ _ => hon, Or.inr ⟨hst, Or.inl hon⟩⟩
  · refine ⟨fun hne => absurd ha hne, Or.inr ⟨hst, Or.inr ⟨ha, fun hnone => ?_⟩⟩⟩
    obtain ⟨sd, ch, pl, ab, hframe, hpolled⟩ := hs.frame
    obtain rfl : sd = none := by rw [← hnone, hframe]
    -- there was a receiver, as the source has not ended
    have hsome : c.sendData ≠ none := fun hn => by simp [source_of_none hn] at hend
    rcases hpolled.moved with h | ⟨s, r, -, -, h⟩
    · exact hsome h.symm
    · simp at h

/-- **Polling for data** leaves the stream active or the task registered, or the send half
was ended. -/
theorem pollSendData (h : c.Fetched reason) (hl : c.Linked cur) :
    c.pollSendData.Fetched reason ∧ (c.pollSendData.Ended reason ∨
      c.pollSendData.activeInPicoquic = true ∨ c.pollSendData.Waiting) := by
  rcases pollSendData_cases hl.slotDistinct with
    ⟨hno, hc⟩ | ⟨s, s', chans, c₁, ha, hs, hc₁, -, -, hsrc, hcase⟩
  · rw [hc]
    refine ⟨h, h.data.imp_right fun hd => Or.inl (hd.2.resolve_right ?_)⟩
    rintro ⟨ha, hs⟩
    exact hno.elim (fun hne => hne ha) hs
  have hst₁ : c₁.stopSendingOrFinSent = c.stopSendingOrFinSent := by rw [hc₁]
  have hcalls₁ : c₁.calls = c.calls := by rw [hc₁]
  have hact₁ : c₁.activeBuffer = none := by rw [hc₁, ha]
  have hsd₁ : c₁.sendData ≠ none := by rw [hc₁]; simp
  have h₁ : c₁.Fetched reason := h.of_eq (hact₁.trans ha.symm) hst₁ hcalls₁ fun _ => hsd₁
  have hmark : ∀ id, (Call.markActiveStream id).activity = some true := fun _ => rfl
  rcases hcase with ⟨buf, q, hi, hc⟩ | ⟨hi, he, hc⟩ | ⟨hi, he, hc⟩
  · have hcalls : c.pollSendData.calls = c.calls ++ [.markActiveStream c.id] := by rw [hc]
    have hon : c.pollSendData.activeInPicoquic = true := by
      rw [activeInPicoquic_of_calls hcalls, hmark, Option.getD_some]
    refine ⟨⟨fun _ _ => hon, ?_⟩, Or.inr (Or.inl hon)⟩
    refine h.data.imp (fun hend => hend.of_calls hcalls) fun hd => ⟨?_, Or.inl hon⟩
    rw [hc]
    exact hst₁.trans hd.1
  · obtain ⟨chans', -, hdrop⟩ := handleSendDataDropped_spec c₁
    rw [← hc] at hdrop
    by_cases hreset : c₁.dataSend = false ∧ c₁.activeBuffer = none
    · rw [if_pos hreset] at hdrop
      have hend : c.pollSendData.Ended reason := by
        refine Or.inr (Or.inl ?_)
        have hcalls := congrArg Context.calls hdrop
        rw [resets_of_calls hcalls]
        exact Nat.succ_ne_zero _
      exact ⟨of_ended hend (by rw [hdrop]), Or.inl hend⟩
    · rw [if_neg hreset] at hdrop
      by_cases hstop : c₁.stopSendingOrFinSent = false
      · rw [if_pos hstop] at hdrop
        have hon : c.pollSendData.activeInPicoquic = true := by
          have hcalls := congrArg Context.calls hdrop
          rw [activeInPicoquic_of_calls hcalls, hmark, Option.getD_some]
        refine ⟨⟨fun _ _ => hon, Or.inr ⟨?_, Or.inl hon⟩⟩, Or.inr (Or.inl hon)⟩
        rw [hdrop]
        exact hstop
      · -- the flag says that the send half was ended before
        rw [if_neg hstop] at hdrop
        have hend : c.pollSendData.Ended reason := by
          have hend₁ := h₁.data.resolve_right fun hd => hstop hd.1
          refine hend₁.of_eq ?_
          rw [hdrop]
        refine ⟨of_ended hend ?_, Or.inl hend⟩
        rw [hdrop]
        simpa using hstop
  · rw [hc]
    exact ⟨h₁, Or.inr (Or.inr ⟨hact₁, hc ▸ pollSendData_registered hl.slotDistinct ha hs hi he⟩)⟩

/-- A control message ends the send half, or swaps the receiver. -/
theorem handleControlMsg (h : c.Fetched reason) (hl : c.Linked cur) {msg : Message}
    {q : List Message} (hq : c.controlMsg.queue = msg :: q)
    (hm : { c with controlMsg := c.controlMsg.poll.2 }.handleControlMsg msg = some c') :
    c'.Fetched reason := by
  rcases hl.control msg (by simp [hq]) with rfl | ⟨n, o, rfl⟩
  · obtain ⟨chans, hr, -⟩ := reset_spec { c with controlMsg := c.controlMsg.poll.2 }
    obtain rfl := Option.some.inj hm
    rw [hr]
    refine of_ended (Or.inr (Or.inl ?_)) rfl
    rw [resets_of_calls (c := c) rfl]
    exact Nat.succ_ne_zero _
  · cases hs : c.sendData with
    | none =>
      obtain ⟨chans, hsw⟩ := handleControlMsg_swap_of_none
        (c := { c with controlMsg := c.controlMsg.poll.2 }) hs n o
      obtain rfl := Option.some.inj (hsw.symm.trans hm)
      exact h.of_eq rfl rfl rfl fun hne => hne
    | some s =>
      obtain ⟨c₁, hc₁, hsw⟩ := Context.handleControlMsg_swap
        (c := { c with controlMsg := c.controlMsg.poll.2 }) hs n o
      obtain rfl := Option.some.inj (hc₁.symm.trans hm)
      obtain ⟨chans, hframe⟩ := hsw.frame
      exact h.of_eq (by rw [hframe]) (by rw [hframe]) (by rw [hframe]) fun _ => by rw [hframe]; simp

end Fetched

end Context

/-! ### Steps and runs -/

namespace Pair

variable {p p' : Pair} {e : Event} {reason : Prop}

/-- **Every step keeps the data fetched**, unless the context is dropped with its
connection, or the peer stops the stream. -/
theorem fetched_step (hl : p.Linked) (h : p.ctx.Fetched reason) (hstep : p.step e = some p')
    (hstop : ∀ bytes, e = .callback (.data bytes .stopSending) → reason)
    (hdrop : e = .dropContext → reason) : p'.ctx.Fetched reason := by
  refine hl.step_rule (P := fun c => c.Fetched reason) hstep h ?_ (fun _ _ h hi => h.idle hi)
    (fun _ _ _ _ _ hs => .of_sendSpec hs) ?_
    (fun _ _ _ _ _ hl h hq hm => h.handleControlMsg hl hq hm)
    (fun _ _ hl h => (h.pollSendData hl).1) ?_
  · intro c' _ ho
    exact h.of_eq ho.activeBuffer ho.stop ho.calls fun hne => by rwa [ho.sendData]
  · intro c chans bytes he _ _
    exact .of_ended (Or.inr (Or.inr (hstop bytes he))) rfl
  · rintro c recvMsg chans hwhy h
    have hend : c.Ended reason := by
      rcases hwhy with he | ⟨-, hst, -⟩
      · exact Or.inr (Or.inr (hdrop he))
      · exact h.data.resolve_right fun hd => by simp [hst] at hd
    exact ⟨h.buffer, Or.inl hend⟩

/-- The peer stopped the stream in the course of the events. -/
def Stopped (es : List Event) : Prop := ∃ bytes, Event.callback (.data bytes .stopSending) ∈ es

theorem new_fetched {id : Id} {isClientCon : Bool} (h : HasSendHalf id isClientCon ∨ reason) :
    (Streams.new id isClientCon).ctx.Fetched reason := by
  refine ⟨fun hne => absurd (new_activeBuffer id isClientCon) hne, ?_⟩
  rcases h with h | h
  · refine Or.inr ⟨?_, Or.inr ⟨new_activeBuffer id isClientCon, ?_⟩⟩
    · simp [new_stopSendingOrFinSent, h]
    · simp [new_sendData, h]
  · exact Or.inl (Or.inr (Or.inr h))

theorem run_fetched {id : Id} {isClientCon : Bool} {es : List Event}
    (hrun : (Streams.new id isClientCon).run es = some p) :
    p.Linked ∧ p.ctx.Fetched ((¬ HasSendHalf id isClientCon ∨ Stopped es) ∨ p.alive = false) := by
  refine Trace.run_keeps
    (P := fun p => p.Linked ∧
      p.ctx.Fetched ((¬ HasSendHalf id isClientCon ∨ Stopped es) ∨ p.alive = false))
    ?_ ⟨new_linked id isClientCon, new_fetched ?_⟩ hrun
  · rintro p e he p' ⟨hl, h⟩ hstep
    have hdead : p.alive = false → p'.alive = false := fun hd => step_dropped hd hstep
    refine ⟨hl.of_step hstep, fetched_step hl (h.mono (Or.imp_right hdead)) hstep ?_ ?_⟩
    · rintro bytes rfl
      exact Or.inl (Or.inr ⟨bytes, he⟩)
    · rintro rfl
      refine Or.inr ?_
      rcases step_cases hstep with ⟨s, hat, -⟩ | ⟨-, -, hstep⟩ | ⟨rfl, -, hdead⟩
      · simp [Event.atStream] at hat
      · obtain rfl := Option.some.inj hstep
        rfl
      · exact hdead rfl
  · by_cases hs : HasSendHalf id isClientCon
    · exact Or.inl hs
    · exact Or.inr (Or.inl (Or.inl hs))

/-- **Right after a poll** the stream is active, or the task registered, or the send half
was ended. -/
theorem poll_waits (hl : p.Linked) (h : p.ctx.Fetched reason) (ha : p.alive = true)
    (hstep : p.step .poll = some p') :
    p'.ctx.Ended reason ∨ p'.ctx.activeInPicoquic = true ∨ p'.ctx.Waiting := by
  rcases step_cases hstep with ⟨s, hat, -⟩ | ⟨-, -, hstep⟩ | ⟨-, -, hdead⟩
  · simp [Event.atStream] at hat
  · obtain ⟨r, c, hc, hk, h'⟩ := hl.ctx.pollControlMsg_rule (P := fun c => c.Fetched reason)
      (fun _ _ h hi => h.idle hi) (fun _ _ _ _ hl h hq hm => h.handleControlMsg hl hq hm) h
    obtain rfl := Option.some.inj ((stepContext_poll hc).symm.trans hstep)
    obtain ⟨hf, hend⟩ := h'.pollSendData hk.linked
    split
    · rename_i hfin
      -- the context is finished, and dropped
      have hend' : c.pollSendData.Ended reason :=
        hf.data.resolve_right fun hd => by simp [hfin.1] at hd
      obtain ⟨chans, hdrop⟩ := drop_spec c.pollSendData
      refine Or.inl (hend'.of_eq ?_)
      rw [hdrop]
    · exact hend
  · simp [hdead rfl] at ha

/-- **And so it is right after a callback that asks for data.** -/
theorem prepareToSend_waits (hl : p.Linked) (ha : p.alive = true) {dest : Option DataBuffer}
    {n : ℕ} (hstep : p.step (.callback (.prepareToSend dest n)) = some p') :
    p'.ctx.Ended reason ∨ p'.ctx.activeInPicoquic = true ∨ p'.ctx.Waiting := by
  rcases step_cases hstep with ⟨s, hat, -⟩ | ⟨-, -, hstep⟩ | ⟨-, -, hdead⟩
  · simp [Event.atStream] at hat
  · obtain ⟨c, hc, hstep⟩ := Option.bind_eq_some_iff.mp hstep
    obtain rfl := Option.some.inj hstep
    have hd := hl.ctx.slotDistinct
    rcases (handleCallback_prepareToSend hd hc).due with ⟨-, hfin⟩ | ⟨-, hon⟩ | ⟨-, hb, hlen, hend⟩
    · exact Or.inl (Or.inl hfin)
    · exact Or.inr (Or.inl hon)
    · exact Or.inr (Or.inr ⟨hb, handleSendData_registered hd hc hlen hend⟩)
  · simp [hdead rfl] at ha

end Pair

/-- **No stalled sending.** In every run of a stream, with its context alive:

* a buffer in hand of a send half that does not count as finished is always going to be
  asked for, as the stream is active in picoquic;
* right after a poll, and right after a callback that asks for data, the stream is active,
  or nothing is in hand and the task is registered with the receiver, or a `FIN` or a
  reset was given, or the peer has stopped the stream – or it never had a half to send
  on. -/
theorem no_stalled_sending {id : Id} {isClientCon : Bool} {es : List Event} {p : Pair}
    (hrun : (new id isClientCon).run es = some p) (ha : p.alive = true) :
    (p.ctx.activeBuffer ≠ none → p.ctx.stopSendingOrFinSent = false →
      p.ctx.activeInPicoquic = true) ∧
    ∀ e p', (e = .poll ∨ ∃ dest n, e = .callback (.prepareToSend dest n)) → p.step e = some p' →
      p'.ctx.activeInPicoquic = true ∨ p'.ctx.Waiting ∨ p'.ctx.fins ≠ 0 ∨ p'.ctx.resets ≠ 0 ∨
        (∃ bytes, Event.callback (.data bytes .stopSending) ∈ es) ∨
        ¬ HasSendHalf id isClientCon := by
  obtain ⟨hl, h⟩ := Pair.run_fetched hrun
  have hf : p.ctx.Fetched (¬ HasSendHalf id isClientCon ∨ Pair.Stopped es) :=
    h.mono fun hwhy => hwhy.resolve_right (by simp [ha])
  refine ⟨hf.buffer, fun e p' he hstep => ?_⟩
  have hwaits : p'.ctx.Ended (¬ HasSendHalf id isClientCon ∨ Pair.Stopped es) ∨
      p'.ctx.activeInPicoquic = true ∨ p'.ctx.Waiting := by
    rcases he with rfl | ⟨dest, n, rfl⟩
    · exact Pair.poll_waits hl hf ha hstep
    · exact Pair.prepareToSend_waits hl ha hstep
  rcases hwaits with (hfin | hreset | hno | hstop) | hon | hwait
  · exact Or.inr (Or.inr (Or.inl hfin))
  · exact Or.inr (Or.inr (Or.inr (Or.inl hreset)))
  · exact Or.inr (Or.inr (Or.inr (Or.inr (Or.inr hno))))
  · exact Or.inr (Or.inr (Or.inr (Or.inr (Or.inl hstop))))
  · exact Or.inl hon
  · exact Or.inr (Or.inl hwait)

/-- Items of which the first is cut, a swap in between, and a poll at the end. -/
theorem no_stalled_sending_of_swap : ∃ p p', (new 4 true).run
      [.startSend [1, 2, 3] true, .poll, .callback (.prepareToSend (some zeroed) 2),
        .setSendChannelSize, .startSend [4] true, .poll,
        .callback (.prepareToSend (some zeroed) 9)] = some p ∧ p.step .poll = some p' ∧
      (p'.ctx.activeInPicoquic = true ∨ p'.ctx.Waiting ∨ p'.ctx.fins ≠ 0 ∨ p'.ctx.resets ≠ 0 ∨
        (∃ bytes, Event.callback (.data bytes .stopSending) ∈
          ([.startSend [1, 2, 3] true, .poll, .callback (.prepareToSend (some zeroed) 2),
            .setSendChannelSize, .startSend [4] true, .poll,
            .callback (.prepareToSend (some zeroed) 9)] : List Event)) ∨
        ¬ HasSendHalf 4 true) :=
  ⟨_, _, rfl, rfl, (@no_stalled_sending 4 true
    [.startSend [1, 2, 3] true, .poll, .callback (.prepareToSend (some zeroed) 2),
      .setSendChannelSize, .startSend [4] true, .poll,
      .callback (.prepareToSend (some zeroed) 9)] _ rfl rfl).2 .poll _ (Or.inl rfl) rfl⟩

/-- **A stream that is only received on** is neither active nor waiting for anybody. The
peer has opened it, and the event loop polls it. -/
theorem receive_only_waits_for_nobody : ∃ p, (new 3 true).run [.poll] = some p ∧
    p.alive = true ∧ p.ctx.activeInPicoquic = false ∧ p.ctx.sendData = none ∧ ¬ p.ctx.Waiting ∧
      p.ctx.fins = 0 ∧ p.ctx.resets = 0 := by
  refine ⟨_, rfl, rfl, rfl, rfl, ?_, rfl, rfl⟩
  rintro ⟨-, s, hs, -⟩
  exact Option.some_ne_none s hs.symm

end Streams

end PicoquicRs
