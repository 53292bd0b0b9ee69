import PicoquicRs.Streams.Linked

/-!
# The end of the sending side

A stream is ended by a `FIN`, handed over by a `prepare_to_send` callback, or by a
reset, called while polling. Whichever of the two sees the end of the data decides,
and `Context.dataSend` is meant to keep polling from resetting a stream that a
callback has ended. It does not do so when the callback had no byte to hand over:
items that are all empty are ended by a `FIN`, and reset by the next poll
(`PicoquicRs.Streams.fin_then_reset`).

Without such a poll the two signals exclude each other, as the invariant
`PicoquicRs.Streams.Context.EndSignal` shows (`PicoquicRs.Streams.one_end_signal`).
-/

namespace PicoquicRs

namespace Streams

open Futures Context

namespace Context

variable {c c' : Context} {cur : Option ChanRef}

/-- **What the context knows of the end it has signalled.** -/
structure EndSignal (c : Context) : Prop where
  /-- The application has not asked for a reset. -/
  control : Message.reset ∉ c.controlMsg.queue
  /-- Picoquic asks for data only where there is some, or where the end is due. -/
  active : c.activeInPicoquic = true →
    c.fins = 0 ∧ c.resets = 0 ∧ (c.sendData ≠ none → c.activeBuffer ≠ none)
  /-- After a `FIN` nothing is left, and if there is a receiver still, it is used up. -/
  finned : c.fins ≠ 0 → c.fins = 1 ∧ c.resets = 0 ∧ c.activeBuffer = none ∧
    (c.sendData ≠ none → c.stopSendingOrFinSent = true ∧ c.source.items = [] ∧
      c.source.ended = true)
  /-- Only a stream that has sent nothing is reset. -/
  reset : c.resets ≠ 0 → c.resets = 1 ∧ c.fins = 0 ∧ c.sendData = none ∧ c.sentBytes = []
  data : c.dataSend = false → c.sentBytes = []

/-- **The stream was ended by a callback that had no byte to hand over**, and the
receiver of its data is still there. -/
def EndedEmpty (c : Context) : Prop :=
  c.sendData ≠ none ∧ c.stopSendingOrFinSent = true ∧ c.dataSend = false

instance (c : Context) : Decidable c.EndedEmpty := inferInstanceAs (Decidable (_ ∧ _ ∧ _))

namespace EndSignal

/-- **At most one end signal was given**, and a reset only if no byte was handed
over. -/
theorem one (h : c.EndSignal) : c.fins + c.resets ≤ 1 ∧ (c.resets ≠ 0 → c.sentBytes = []) := by
  refine ⟨?_, fun hr => (h.reset hr).2.2.2⟩
  by_cases hf : c.fins = 0
  · by_cases hr : c.resets = 0
    · omega
    · have := (h.reset hr).1
      omega
  · obtain ⟨hf', hr, -⟩ := h.finned hf
    omega

/-- A function that makes no call. -/
theorem of_calls_eq (h : c.EndSignal) (hq : Message.reset ∉ c'.controlMsg.queue)
    (hcalls : c'.calls = c.calls) (hact : c'.activeBuffer = c.activeBuffer)
    (hd : c'.dataSend = c.dataSend) (hsd : c'.sendData ≠ none → c.sendData ≠ none)
    (hfin : c.fins ≠ 0 → c'.sendData ≠ none → c'.stopSendingOrFinSent = true ∧
      c'.source.items = [] ∧ c'.source.ended = true) : c'.EndSignal := by
  have hf : c'.fins = c.fins := by rw [fins, hcalls, fins]
  have hr : c'.resets = c.resets := by rw [resets, hcalls, resets]
  have hb : c'.sentBytes = c.sentBytes := by rw [sentBytes, hcalls, sentBytes]
  have ha : c'.activeInPicoquic = c.activeInPicoquic := by
    rw [activeInPicoquic, hcalls, activeInPicoquic]
  exact {
    control := hq
    active := by
      rw [ha, hf, hr, hact]
      intro hon
      obtain ⟨h₁, h₂, h₃⟩ := h.active hon
      exact ⟨h₁, h₂, fun hs => h₃ (hsd hs)⟩
    finned := by
      rw [hf, hr, hact]
      intro hne
      obtain ⟨h₁, h₂, h₃, -⟩ := h.finned hne
      exact ⟨h₁, h₂, h₃, hfin hne⟩
    reset := by
      rw [hf, hr, hb]
      intro hne
      obtain ⟨h₁, h₂, h₃, h₄⟩ := h.reset hne
      exact ⟨h₁, h₂, by_contra fun hs => hsd hs h₃, h₄⟩
    data := by
      rw [hd, hb]
      exact h.data }

theorem of_idle (h : c.EndSignal) (hi : Idle c c') : c'.EndSignal where
  control := by rw [hi.control]; exact h.control
  active := by
    rw [hi.activeInPicoquic, hi.fins, hi.resets, hi.activeBuffer, hi.sendData]
    exact h.active
  finned := by
    rw [hi.fins, hi.resets, hi.activeBuffer, hi.sendData, hi.stop, hi.source]
    exact h.finned
  reset := by
    rw [hi.fins, hi.resets, hi.sendData, hi.sentBytes]
    exact h.reset
  data := by
    rw [hi.dataSend, hi.sentBytes]
    exact h.data

/-- The receiver is given up, without a call. -/
theorem of_sendData_none (h : c.EndSignal) (hq : Message.reset ∉ c'.controlMsg.queue)
    (hcalls : c'.calls = c.calls) (hact : c'.activeBuffer = c.activeBuffer)
    (hd : c'.dataSend = c.dataSend) (hs : c'.sendData = none) : c'.EndSignal :=
  h.of_calls_eq hq hcalls hact hd (absurd hs) fun _ hne => absurd hs hne

/-- **A callback while the stream is active.** It is the first to signal the end, and
makes the stream inactive if it does. -/
theorem handleSendData (h : c.EndSignal) (hon : c.activeInPicoquic = true) {n : ℕ}
    (hs : SendSpec c n c') : c'.EndSignal := by
  obtain ⟨hf, hr, -⟩ := h.active hon
  obtain ⟨sd, ch, pl, ab, hframe, -⟩ := hs.frame
  have hcalls : c'.calls = c.calls ++ [.provideStreamDataBuffer (min n c.unsent.length)
      (c.source.ended && decide (c.unsent.length ≤ n)) (decide (n < c.unsent.length))
      (c.unsent.take n)] := by rw [hframe]
  have hf' := fins_of_calls hcalls
  have hr' := resets_of_calls hcalls
  have hb' := sentBytes_of_calls hcalls
  have hon' := activeInPicoquic_of_calls hcalls
  simp only [Call.isFin, Call.isReset, Call.bytes, Call.activity, Option.getD_some, hf, hr,
    Bool.toNat_false, Nat.zero_add] at hf' hr' hb' hon'
  have hq : c'.controlMsg = c.controlMsg := by rw [hframe]
  have hstop : c'.stopSendingOrFinSent = (c.source.ended && decide (c.unsent.length ≤ n)) := by
    rw [hframe]
  have hd : c'.dataSend = (c.dataSend || decide (c.unsent ≠ [])) := by rw [hframe]
  have hactive := hs.active
  exact {
    control := by rw [hq]; exact h.control
    active := by
      -- active again: something is left, so no `FIN` was handed over
      rw [hon', decide_eq_true_eq, hf', hr']
      intro hlt
      rw [if_neg (by omega)] at hactive
      obtain ⟨buf, hbuf, -⟩ := hactive
      exact ⟨by simp [Nat.not_le.mpr hlt], rfl, fun _ => by simp [hbuf]⟩
    finned := by
      intro hne
      have hfin : (c.source.ended && decide (c.unsent.length ≤ n)) = true := by
        by_contra hfalse
        exact hne (by rw [hf', eq_false_of_ne_true hfalse]; rfl)
      obtain ⟨he, hle⟩ : c.source.ended = true ∧ c.unsent.length ≤ n := by simpa using hfin
      rw [if_pos hle] at hactive
      exact ⟨by rw [hf', hfin]; rfl, hr', hactive.1,
        fun _ => ⟨hstop.trans hfin, hactive.2, hs.ended.trans he⟩⟩
    reset := fun hne => absurd hr' hne
    data := by
      rw [hd, hb']
      intro hfalse
      obtain ⟨h₁, h₂⟩ : c.dataSend = false ∧ c.unsent = [] := by simpa using hfalse
      rw [h.data h₁, h₂, List.take_nil, List.append_nil] }

/-- **Polling for data**, unless a callback has ended the stream without a byte. An
item makes the stream active; the end resets it or makes it active for the `FIN`,
but does neither after a `FIN`. -/
theorem pollSendData (h : c.EndSignal) (hl : c.Linked cur) (hok : ¬ c.EndedEmpty) :
    c.pollSendData.EndSignal := by
  rcases pollSendData_cases hl.slotDistinct with
    ⟨-, hc⟩ | ⟨s, s', chans, c₁, ha, hs, hc₁, -, -, hsrc, hcase⟩
  · rw [hc]
    exact h
  have hsome : c.sendData ≠ none := by simp [hs]
  have hr : c.resets = 0 := by_contra fun hne => hsome (h.reset hne).2.2.1
  have hoff : c.activeInPicoquic = false := by
    by_contra hon
    exact (h.active (by simpa using hon)).2.2 hsome ha
  have hst : c₁.stopSendingOrFinSent = c.stopSendingOrFinSent := by rw [hc₁]
  have hq : c₁.controlMsg = c.controlMsg := by rw [hc₁]
  have hcalls₁ : c₁.calls = c.calls := by rw [hc₁]
  have hact₁ : c₁.activeBuffer = none := by rw [hc₁, ha]
  have hd₁ : c₁.dataSend = c.dataSend := by rw [hc₁]
  rcases hcase with ⟨buf, q, hi, hc⟩ | ⟨hi, he, hc⟩ | ⟨hi, he, hc⟩
  · -- an item is there, so no `FIN` was handed over
    have hf : c.fins = 0 := by
      by_contra hne
      have := ((h.finned hne).2.2.2 hsome).2.1
      simp [hi] at this
    have hcalls : c.pollSendData.calls = c.calls ++ [.markActiveStream c.id] := by rw [hc]
    have hf' := fins_of_calls hcalls
    have hr' := resets_of_calls hcalls
    have hb' := sentBytes_of_calls hcalls
    simp only [Call.isFin, Call.isReset, Call.bytes, hf, hr, Bool.toNat_false, Nat.add_zero,
      List.append_nil] at hf' hr' hb'
    exact {
      control := by rw [hc]; exact hq ▸ h.control
      active := fun _ => ⟨hf', hr', fun _ => by simp [hc]⟩
      finned := fun hne => absurd hf' hne
      reset := fun hne => absurd hr' hne
      data := by rw [hb', hc]; exact hd₁ ▸ h.data }
  · obtain ⟨chans', -, hdrop⟩ := handleSendDataDropped_spec c₁
    rw [← hc] at hdrop
    by_cases hreset : c₁.dataSend = false ∧ c₁.activeBuffer = none
    · -- no byte was sent, and no `FIN` either: the stream is reset
      rw [if_pos hreset] at hdrop
      have hd : c.dataSend = false := hd₁ ▸ hreset.1
      have hf : c.fins = 0 := by
        by_contra hne
        exact hok ⟨hsome, ((h.finned hne).2.2.2 hsome).1, hd⟩
      have hcalls : c.pollSendData.calls = c.calls ++ [.resetStream c₁.id] := by
        rw [hdrop, hcalls₁]
      have hf' := fins_of_calls hcalls
      have hr' := resets_of_calls hcalls
      have hb' := sentBytes_of_calls hcalls
      have hon' := activeInPicoquic_of_calls hcalls
      simp only [Call.isFin, Call.isReset, Call.bytes, Call.activity, hf, hr, hoff,
        Bool.toNat_false, Bool.toNat_true, List.append_nil, Nat.zero_add, Option.getD_none]
        at hf' hr' hb' hon'
      have hs' : c.pollSendData.sendData = none := by rw [hdrop]
      exact {
        control := by rw [hdrop]; exact hq ▸ h.control
        active := fun hon => absurd hon (by simp [hon'])
        finned := fun hne => absurd hf' hne
        reset := fun _ => ⟨hr', hf', hs', hb'.trans (h.data hd)⟩
        data := fun _ => hb'.trans (h.data hd) }
    · rw [if_neg hreset] at hdrop
      by_cases hstop : c₁.stopSendingOrFinSent = false
      · -- bytes were sent, and the `FIN` is due
        rw [if_pos hstop] at hdrop
        have hf : c.fins = 0 := by
          by_contra hne
          have := ((h.finned hne).2.2.2 hsome).1
          rw [← hst, hstop] at this
          simp at this
        have hcalls : c.pollSendData.calls = c.calls ++ [.markActiveStream c₁.id] := by
          rw [hdrop, hcalls₁]
        have hf' := fins_of_calls hcalls
        have hr' := resets_of_calls hcalls
        have hb' := sentBytes_of_calls hcalls
        simp only [Call.isFin, Call.isReset, Call.bytes, hf, hr, Bool.toNat_false, Nat.add_zero,
          List.append_nil] at hf' hr' hb'
        exact {
          control := by rw [hdrop]; exact hq ▸ h.control
          active := fun _ => ⟨hf', hr', fun hne => absurd (by rw [hdrop]) hne⟩
          finned := fun hne => absurd hf' hne
          reset := fun hne => absurd hr' hne
          data := by rw [hb', hdrop]; exact hd₁ ▸ h.data }
      · rw [if_neg hstop] at hdrop
        have h₁ : c.pollSendData.calls = c.calls := by rw [hdrop, hcalls₁]
        refine h.of_sendData_none ?_ h₁ ?_ ?_ ?_
        · rw [hdrop]
          exact hq ▸ h.control
        · rw [hdrop, ha]
          exact hact₁
        · rw [hdrop]
          exact hd₁
        · rw [hdrop]
  · rw [Source.poll_of_nil hi] at hsrc
    rw [hc]
    refine h.of_calls_eq (hq ▸ h.control) hcalls₁ (hact₁.trans ha.symm) hd₁ (fun _ => hsome) ?_
    intro hne _
    rw [hst, hsrc]
    exact (h.finned hne).2.2.2 hsome

/-- What a control message leaves alone. -/
theorem frame_of_handleControlMsg (h : c.EndSignal) (hl : c.Linked cur) {msg : Message}
    {q : List Message} (hq : c.controlMsg.queue = msg :: q)
    (hc : { c with controlMsg := c.controlMsg.poll.2 }.handleControlMsg msg = some c') :
    c'.calls = c.calls ∧ c'.activeBuffer = c.activeBuffer ∧ c'.dataSend = c.dataSend ∧
      c'.stopSendingOrFinSent = c.stopSendingOrFinSent ∧
      (c'.sendData = none ↔ c.sendData = none) ∧ ∃ n o, msg = .swapSendData n o := by
  rcases hl.control msg (by simp [hq]) with rfl | ⟨n, o, rfl⟩
  · exact absurd (by simp [hq]) h.control
  · rcases Option.eq_none_or_eq_some c.sendData with hs | ⟨s, hs⟩
    · obtain ⟨chans, hc'⟩ := handleControlMsg_swap_of_none
        (c := { c with controlMsg := c.controlMsg.poll.2 }) hs n o
      obtain rfl := Option.some.inj (hc'.symm.trans hc)
      exact ⟨rfl, rfl, rfl, rfl, Iff.rfl, n, o, rfl⟩
    · obtain ⟨c₁, hc', hsw⟩ := handleControlMsg_swap
        (c := { c with controlMsg := c.controlMsg.poll.2 }) hs n o
      obtain rfl := Option.some.inj (hc'.symm.trans hc)
      obtain ⟨chans, hframe⟩ := hsw.frame
      rw [hframe]
      exact ⟨rfl, rfl, rfl, rfl, by simp [hs], n, o, rfl⟩

/-- **A control message.** A swap is under way only as long as no `FIN` was handed over,
or nothing is received any more. -/
theorem handleControlMsg (h : c.EndSignal) (hl : c.Linked cur) {msg : Message} {q : List Message}
    (hq : c.controlMsg.queue = msg :: q)
    (hc : { c with controlMsg := c.controlMsg.poll.2 }.handleControlMsg msg = some c') :
    c'.EndSignal := by
  have hq' : c'.controlMsg.queue = q := by
    rw [handleControlMsg_controlMsg hc, Chan.poll_queue, hq, List.tail_cons]
  have hnoreset : Message.reset ∉ c'.controlMsg.queue := fun hm =>
    h.control (by rw [hq]; exact List.mem_cons_of_mem _ (hq' ▸ hm))
  obtain ⟨h₁, h₂, h₃, -, h₅, n, o, rfl⟩ := h.frame_of_handleControlMsg hl hq hc
  refine h.of_calls_eq hnoreset h₁ h₂ h₃ h₅.not.mp fun hne hs => ?_
  -- a source that is used up has no successor under way
  obtain ⟨s, hs⟩ := Option.ne_none_iff_exists'.mp (h₅.not.mp hs)
  have hend := ((h.finned hne).2.2.2 (by simp [hs])).2.2
  exact absurd (by simp [hq]) ((hl.of_ended hs hend).2 n o)

theorem pollControlMsg (h : c.EndSignal) (hl : c.Linked cur) :
    ∃ r c', c.pollControlMsg = some (r, c') ∧ Kept cur c c' ∧ c'.EndSignal ∧
      (¬ c.EndedEmpty → ¬ c'.EndedEmpty) := by
  refine hl.pollControlMsg_rule (P := fun c' => c'.EndSignal ∧ (¬ c.EndedEmpty → ¬ c'.EndedEmpty))
    ?_ ?_ ⟨h, fun h => h⟩
  · rintro c₁ c₂ ⟨h₁, hne⟩ hi
    refine ⟨h₁.of_idle hi, fun h₂ h₃ => hne h₂ ?_⟩
    rwa [EndedEmpty, ← hi.sendData, ← hi.stop, ← hi.dataSend]
  · rintro c₁ c₂ msg q hl₁ ⟨h₁, hne⟩ hq hc
    obtain ⟨-, -, hd, hst, hs, -⟩ := h₁.frame_of_handleControlMsg hl₁ hq hc
    refine ⟨h₁.handleControlMsg hl₁ hq hc, fun h₂ h₃ => hne h₂ ?_⟩
    rwa [EndedEmpty, ne_eq, ← hs, ← hst, ← hd]

end EndSignal

end Context

/-! ### Runs -/

namespace Pair

variable {p p' : Pair}

/-- **What a run of this section may do**: the application resets nothing, the
connection stays open, and picoquic asks for data while the stream is active. -/
def staysOpen (p : Pair) : Event → Bool
  | .callback (.prepareToSend _ _) => p.ctx.activeInPicoquic
  | .reset | .connectionError _ | .connectionClose | .dropContext => false
  | _ => true

/-- A stream that was ended without a byte is not polled. -/
def notPolledEndedEmpty (p : Pair) : Event → Bool
  | .poll | .pollSendData => !decide p.ctx.EndedEmpty
  | _ => true

/-- A step of the application signals no end. -/
theorem endSignal_stepStream (h : p.ctx.EndSignal) (hl : p.Linked) {s : Stream}
    (hs : p.stream = some s) {e : Event} (he : e.atStream = true) (hok : p.staysOpen e = true)
    (hstep : p.stepStream s e = some p') : p'.ctx.EndSignal := by
  -- as long as the application has its end, no `FIN` was handed over to a receiver
  have hfin : p.ctx.fins ≠ 0 → p.ctx.sendData = none := fun hne => by
    by_contra hsome
    obtain ⟨sw, hsw⟩ := Option.ne_none_iff_exists'.mp hsome
    have := (hl.stream_eq_none hsw ((h.finned hne).2.2.2 hsome).2.2).1
    simp [hs] at this
  -- so what the application does to the channels makes no difference
  have hchans : ∀ c' : Context, c'.calls = p.ctx.calls → c'.activeBuffer = p.ctx.activeBuffer →
      c'.dataSend = p.ctx.dataSend → c'.sendData = p.ctx.sendData →
      Message.reset ∉ c'.controlMsg.queue → c'.EndSignal := fun c' h₁ h₂ h₃ h₄ h₅ =>
    h.of_calls_eq h₅ h₁ h₂ h₃ (by rw [h₄]; exact fun h => h)
      fun hne hsome => absurd (h₄.trans (hfin hne)) hsome
  cases e with
  | startSend item room =>
    rcases stepStream_startSend (p := p) (s := s) item room with ⟨r, -, -, h'⟩ | h'
    · obtain rfl := Option.some.inj (h'.symm.trans hstep)
      exact hchans _ rfl rfl rfl rfl h.control
    · obtain rfl := Option.some.inj (h'.symm.trans hstep)
      exact h
  | setSendChannelSize =>
    rcases stepStream_setSendChannelSize hs with
      ⟨-, h'⟩ | ⟨a, c', -, h', ⟨-, rfl⟩ | ⟨-, chans, rfl⟩⟩
    · obtain rfl := Option.some.inj (h'.symm.trans hstep)
      exact h
    · obtain rfl := Option.some.inj (h'.symm.trans hstep)
      exact hchans _ rfl rfl rfl rfl (by simpa [pushSwap] using h.control)
    · obtain rfl := Option.some.inj (h'.symm.trans hstep)
      exact hchans _ rfl rfl rfl rfl h.control
  | reset => simp [staysOpen] at hok
  | pollStream =>
    obtain ⟨o, s', hpoll, -⟩ := Stream.poll_frame s p.ctx hl.ctx.recv
    obtain rfl := Option.some.inj ((stepStream_pollStream hpoll).symm.trans hstep)
    exact hchans _ rfl rfl rfl rfl h.control
  | dropStream =>
    obtain rfl := Option.some.inj hstep
    exact hchans _ rfl rfl rfl rfl h.control
  | _ => simp [Event.atStream] at he

/-- **A step of the event loop** signals an end once. -/
theorem endSignal_stepContext (h : p.ctx.EndSignal) (hl : p.Linked) {e : Event}
    (he : e.atStream = false) (hok : p.staysOpen e = true) (hpoll : p.notPolledEndedEmpty e = true)
    (hstep : p.stepContext e = some p') : p'.ctx.EndSignal := by
  cases e with
  | callback cb =>
    cases cb with
    | prepareToSend dest n =>
      cases dest with
      | none => simp [stepContext, handleCallback, Context.handleSendData] at hstep
      | some dest =>
        obtain ⟨c', hc', hspec⟩ := handleSendData_spec dest n hl.ctx.slotDistinct
        obtain rfl := Option.some.inj
          ((@stepContext_callback p (.prepareToSend (some dest) n) c' hc').symm.trans hstep)
        exact h.handleSendData hok hspec
    | data bytes event =>
      obtain ⟨c₁, heff, -, hc⟩ := handleCallback_data (c := p.ctx) bytes event
      obtain rfl := Option.some.inj ((stepContext_callback hc).symm.trans hstep)
      have h₁ := h.of_idle heff.idle
      simp only
      split
      · obtain ⟨chans, hclose, -⟩ := closeSendData_spec { c₁ with stopSendingOrFinSent := true }
        rw [hclose]
        exact h₁.of_sendData_none h₁.control rfl rfl rfl rfl
      · exact h₁
  | pollControlMsg =>
    obtain ⟨r, c', hc', -, h', -⟩ := h.pollControlMsg hl.ctx
    obtain rfl := Option.some.inj ((stepContext_pollControlMsg hc').symm.trans hstep)
    exact h'
  | pollSendData =>
    obtain rfl := Option.some.inj hstep
    exact h.pollSendData hl.ctx (by simpa [notPolledEndedEmpty] using hpoll)
  | poll =>
    obtain ⟨r, c', hc', hk, h', hne⟩ := h.pollControlMsg hl.ctx
    obtain rfl := Option.some.inj ((stepContext_poll hc').symm.trans hstep)
    have h₂ := h'.pollSendData hk.linked (hne (by simpa [notPolledEndedEmpty] using hpoll))
    split
    · -- the context is finished, and makes no call when it is dropped
      obtain ⟨chans, hd⟩ := drop_spec c'.pollSendData
      simp only [hd]
      exact h₂.of_sendData_none (by simp [Chan.dropReceiver]) rfl rfl rfl rfl
    · exact h₂
  | connectionError err => simp [staysOpen] at hok
  | connectionClose => simp [staysOpen] at hok
  | dropContext => simp [staysOpen] at hok
  | _ => simp [Event.atStream] at he

/-- **Every step keeps the invariant.** -/
theorem endSignal_step (h : p.Linked ∧ p.ctx.EndSignal) {e : Event}
    (hok : p.staysOpen e = true ∧ p.notPolledEndedEmpty e = true) (hstep : p.step e = some p') :
    p'.Linked ∧ p'.ctx.EndSignal := by
  refine ⟨h.1.of_step hstep, ?_⟩
  rw [step] at hstep
  cases he : e.atStream with
  | true =>
    rw [he, if_pos rfl] at hstep
    cases hs : p.stream with
    | none =>
      obtain rfl : p = p' := by simpa [hs] using hstep
      exact h.2
    | some s =>
      simp only [hs] at hstep
      exact endSignal_stepStream h.2 h.1 hs he hok.1 hstep
  | false =>
    rw [he, if_neg Bool.false_ne_true] at hstep
    split at hstep
    · exact endSignal_stepContext h.2 h.1 he hok.1 hok.2 hstep
    · obtain rfl := Option.some.inj hstep
      exact h.2

theorem new_endSignal (id : Id) (isClientCon : Bool) :
    (Streams.new id isClientCon).ctx.EndSignal := by
  have hcalls : (Streams.new id isClientCon).ctx.calls = [] := by
    unfold Streams.new
    split
    rfl
  have hq : (Streams.new id isClientCon).ctx.controlMsg.queue = [] := by
    unfold Streams.new
    split
    rfl
  exact {
    control := by simp [hq]
    active := by simp [activeInPicoquic, hcalls]
    finned := by simp [fins, hcalls]
    reset := by simp [resets, hcalls]
    data := by simp [sentBytes, hcalls] }

end Pair

/-- **One end signal.** In every run of a stream that is not polled after it was ended
without a byte, at most one end signal is given, and a reset only if no byte was
handed over. -/
theorem one_end_signal {id : Id} {isClientCon : Bool} {es : List Event} {p : Pair}
    (hok : Trace.Obeys Pair.step (fun p e => p.staysOpen e) (new id isClientCon) es)
    (hpoll : Trace.Obeys Pair.step (fun p e => p.notPolledEndedEmpty e) (new id isClientCon) es)
    (hrun : (new id isClientCon).run es = some p) :
    p.ctx.fins + p.ctx.resets ≤ 1 ∧ (p.ctx.resets ≠ 0 → p.ctx.sentBytes = []) :=
  (Trace.run_preserves (fun _ _ _ h hok hstep => Pair.endSignal_step h hok hstep)
    ⟨Pair.new_linked id isClientCon, Pair.new_endSignal id isClientCon⟩
    (Trace.obeys_and.mpr ⟨hok, hpoll⟩) hrun).2.one

/-- Items of which one has a byte, a stop in between, and a `FIN` at the end. -/
theorem one_end_signal_of_items : ∃ p, (new 4 true).run
      [.startSend [] true, .startSend [1, 2] true, .poll,
        .callback (.prepareToSend (some zeroed) 1), .dropStream,
        .callback (.prepareToSend (some zeroed) 9), .poll] = some p ∧
      p.ctx.fins = 1 ∧ p.ctx.fins + p.ctx.resets ≤ 1 :=
  ⟨_, rfl, by decide, (@one_end_signal 4 true
    [.startSend [] true, .startSend [1, 2] true, .poll,
      .callback (.prepareToSend (some zeroed) 1), .dropStream,
      .callback (.prepareToSend (some zeroed) 9), .poll] _ (by decide) (by decide) rfl).1⟩

/-- **A stream that is ended by a `FIN` and then reset.** The only item is empty; the
callback finds the end behind it and hands over a `FIN`, and the next poll resets
the stream. -/
theorem fin_then_reset : ∃ es p,
    Trace.Obeys Pair.step (fun p e => p.staysOpen e) (new 4 true) es ∧
      (new 4 true).run es = some p ∧
      p.ctx.calls = [.markActiveStream 4, .provideStreamDataBuffer 0 true false [],
        .stopSending 4, .resetStream 4] ∧ p.ctx.fins = 1 ∧ p.ctx.resets = 1 :=
  ⟨[.startSend [] true, .poll, .dropStream, .callback (.prepareToSend (some zeroed) 10), .poll], _,
    by decide, rfl, by decide⟩

end Streams

end PicoquicRs
