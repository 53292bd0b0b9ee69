import PicoquicRs.Streams.Linked

/-!
# The error of the connection

When the connection fails, the context of a stream leaves the error at the receiver
of the data to send, and nowhere else. The application finds it once the channel it
sends on is closed, which it is as soon as the context is dropped
(`PicoquicRs.Streams.Pair.Held`). So it finds the error exactly if the channel it
sends on at the end is the one whose receiver was active when the error came
(`PicoquicRs.Streams.Pair.error_found_iff`): no swap was outstanding then
(`PicoquicRs.Streams.Context.NoSwap`), and none was made since.
-/

namespace PicoquicRs

namespace Streams

open Futures Context

namespace Chained

variable {h : Store (ErrorChan Bytes)} {a r : ChanRef} {q : List Message}

/-- The channel at the end of the chain is the first one, or one under way. -/
theorem cur_cases (hc : Chained h (some a) r q) :
    (a = r ∧ ∀ n o, Message.swapSendData n o ∉ q) ∨
      (r < a ∧ ∃ o, Message.swapSendData a o ∈ q) := by
  induction q generalizing r with
  | nil => exact Or.inl ⟨hc.2.1, by simp⟩
  | cons m q ih =>
    cases m with
    | swapSendData n o =>
      obtain ⟨-, rfl, -, hlt, hc⟩ := hc
      rcases ih hc with ⟨rfl, -⟩ | ⟨hlt', o', hm⟩
      · exact Or.inr ⟨hlt, _, List.mem_cons_self⟩
      · exact Or.inr ⟨hlt.trans hlt', o', List.mem_cons_of_mem _ hm⟩
    | _ =>
      rcases ih hc with ⟨rfl, hq⟩ | ⟨hlt, o, hm⟩
      · exact Or.inl ⟨rfl, fun n o => by simpa using hq n o⟩
      · exact Or.inr ⟨hlt, o, List.mem_cons_of_mem _ hm⟩

end Chained

namespace Context

variable {c c' c'' : Context} {cur : Option ChanRef} {a : ChanRef}

/-- **No swap is outstanding**: no receiver waits, in the slot or under way. -/
def NoSwap (c : Context) : Prop :=
  (∀ s, c.sendData = some s → s.swapTo = none) ∧
    ∀ n o, Message.swapSendData n o ∉ c.controlMsg.queue

/-- **The application sends to the active receiver exactly if no swap is
outstanding.** -/
theorem Linked.cur_eq_active_iff (h : c.Linked (some a)) {s : SwappableStream ChanRef}
    (hs : c.sendData = some s) : a = s.activeStream ↔ c.NoSwap := by
  have hc := h.chain s hs
  cases hn : s.swapTo with
  | none =>
    rw [hn, Option.getD_none] at hc
    rcases hc.cur_cases with ⟨rfl, hq⟩ | ⟨hlt, o, hm⟩
    · exact ⟨fun _ => ⟨fun s' hs' => Option.some.inj (hs.symm.trans hs') ▸ hn, hq⟩, fun _ => rfl⟩
    · exact ⟨fun he => absurd hlt (he ▸ lt_irrefl _), fun hno => absurd hm (hno.2 a o)⟩
  | some r =>
    rw [hn, Option.getD_some] at hc
    have hlt := (h.active s r hs hn).1.trans_le hc.le_cur.1
    exact ⟨fun he => absurd hlt (he ▸ lt_irrefl _), fun hno => by
      have := hno.1 s hs
      simp [hn] at this⟩

/-- **A channel without a receiver in the context is closed**, unless its receiver is
under way. -/
def Held (c : Context) (cur : Option ChanRef) : Prop :=
  c.sendData = none → ∀ a, cur = some a → (c.chans.cell a).chan.isOpen = true →
    ∃ o, Message.swapSendData a o ∈ c.controlMsg.queue

/-- **The errors stay where they are**, and so do the channels. -/
structure ErrorsKept (cur : Option ChanRef) (c c' : Context) : Prop where
  next : c'.chans.next = c.chans.next
  errorState : ∀ q, (c'.chans.cell q).errorState = (c.chans.cell q).errorState
  held : c.Held cur → c'.Held cur

namespace ErrorsKept

theorem refl (c : Context) : ErrorsKept cur c c := ⟨rfl, fun _ => rfl, fun h => h⟩

theorem trans (h : ErrorsKept cur c c') (h' : ErrorsKept cur c' c'') : ErrorsKept cur c c'' where
  next := h'.next.trans h.next
  errorState q := (h'.errorState q).trans (h.errorState q)
  held := h'.held ∘ h.held

/-- The channels were not touched. -/
theorem of_eq (hs : c'.sendData = c.sendData) (hch : c'.chans = c.chans)
    (hq : c'.controlMsg.queue = c.controlMsg.queue) : ErrorsKept cur c c' where
  next := by rw [hch]
  errorState q := by rw [hch]
  held h := by
    rw [Held, hs, hch, hq]
    exact h

theorem of_recvEffect (he : RecvEffect c c') : ErrorsKept cur c c' := by
  obtain ⟨hs, hch, hq, -⟩ := he.frame_eq
  exact .of_eq hs hch (by rw [hq])

/-- Polling the receiver. -/
theorem of_polled (hq : c'.controlMsg.queue = c.controlMsg.queue)
    (hp : Polled c.sendData c.chans c'.sendData c'.chans) : ErrorsKept cur c c' where
  next := hp.ends.next
  errorState := hp.ends.errorState
  held h hn a ha ho := by
    rw [hq]
    refine h ?_ a ha ((hp.ends.isOpen a).symm.trans ho)
    rcases hp.moved with hs | ⟨s, r, -, -, hs⟩
    · rw [← hs, hn]
    · simp [hn] at hs

/-- **The receiver is given up.** What it consisted of is closed, so the channel the
application sends on is closed or under way. -/
theorem of_givenUp {chans : Store (ErrorChan Bytes)} (hl : c.Linked cur) (hg : c.GivenUp chans)
    (hch : c'.chans = chans) (hq : c'.controlMsg.queue = c.controlMsg.queue) :
    ErrorsKept cur c c' := by
  rcases Option.eq_none_or_eq_some c.sendData with hn | ⟨s, hs⟩
  · have heq := hg.2 hn
    refine ⟨by rw [hch, heq], fun q => by rw [hch, heq], fun h _ a ha ho => ?_⟩
    rw [hch, heq] at ho
    rw [hq]
    exact h hn a ha ho
  · have hd := hg.1 s hs
    refine ⟨by rw [hch, hd.next], fun q => by rw [hch, hd.errorState], fun _ _ a ha ho => ?_⟩
    have hne : a ≠ s.activeStream ∧ s.swapTo ≠ some a := by
      constructor <;>
      · intro heq
        have := (hd.gone a (by simp [heq])).1
        rw [hch, this] at ho
        exact Bool.false_ne_true ho
    rw [hq]
    subst ha
    rcases (hl.chain s hs).cur_cases with ⟨heq, -⟩ | ⟨-, o, hm⟩
    · cases hn : s.swapTo with
      | none => exact absurd (by simpa [hn] using heq) hne.1
      | some r => exact absurd (by simpa [hn] using heq.symm) (hn ▸ hne.2)
    · exact ⟨o, hm⟩

end ErrorsKept

/-! ### The functions of the context -/

theorem closeSendData_errorsKept (h : c.Linked cur) : ErrorsKept cur c c.closeSendData := by
  obtain ⟨chans, hc, hg⟩ := closeSendData_spec c
  exact .of_givenUp h hg (by rw [hc]) (by rw [hc])

theorem reset_errorsKept (h : c.Linked cur) : ErrorsKept cur c c.reset := by
  obtain ⟨chans, hc, hg⟩ := reset_spec c
  exact .of_givenUp h hg (by rw [hc]) (by rw [hc])

theorem handleSendDataDropped_errorsKept (h : c.Linked cur) :
    ErrorsKept cur c c.handleSendDataDropped := by
  obtain ⟨chans, hg, hc⟩ := handleSendDataDropped_spec c
  rw [hc]
  split
  · exact .of_givenUp h hg rfl rfl
  · split <;> exact .of_givenUp h hg rfl rfl

theorem handleSendData_errorsKept {n : ℕ} (hs : SendSpec c n c') : ErrorsKept cur c c' := by
  obtain ⟨sd, ch, pl, ab, hframe, hpoll⟩ := hs.frame
  exact .of_polled (by rw [hframe]) (by rw [hframe]; exact hpoll)

theorem pollSendData_errorsKept (h : c.Linked cur) : ErrorsKept cur c c.pollSendData := by
  rcases pollSendData_cases h.slotDistinct with
    ⟨-, hc⟩ | ⟨s, s', chans, c₁, -, -, hc₁, hpoll, -, -, hcase⟩
  · rw [hc]
    exact .refl c
  · have hl₁ : c₁.Linked cur := by
      rw [hc₁]
      exact h.of_polled rfl rfl hpoll
    have h₁ : ErrorsKept cur c c₁ := .of_polled (by rw [hc₁]) (by rw [hc₁]; exact hpoll)
    rcases hcase with ⟨buf, q, -, hc⟩ | ⟨-, -, hc⟩ | ⟨-, -, hc⟩
    · rw [hc]
      exact h₁.trans (.of_eq rfl rfl rfl)
    · rw [hc]
      exact h₁.trans (handleSendDataDropped_errorsKept hl₁)
    · rw [hc]
      exact h₁

theorem handleControlMsg_errorsKept (h : c.Linked cur) {msg : Message} {q : List Message}
    (hq : c.controlMsg.queue = msg :: q)
    (hc : { c with controlMsg := c.controlMsg.poll.2 }.handleControlMsg msg = some c') :
    ErrorsKept cur c c' := by
  rcases h.control msg (by simp [hq]) with rfl | ⟨n, o, rfl⟩
  · obtain rfl := Option.some.inj hc
    have hpop : ErrorsKept cur c { c with controlMsg := c.controlMsg.poll.2 } :=
      ⟨rfl, fun _ => rfl, fun hh hn a ha ho => by
        obtain ⟨o, hm⟩ := hh hn a ha ho
        exact ⟨o, by simpa [hq] using hm⟩⟩
    exact hpop.trans (reset_errorsKept (h.pop_reset hq))
  · rcases Option.eq_none_or_eq_some c.sendData with hs | ⟨s, hs⟩
    · -- the receiver under way is dropped
      have hc' : c' = { c with
          controlMsg := c.controlMsg.poll.2
          chans := (c.chans.modify n ErrorChan.dropReceiver).modify o ErrorChan.dropSender } := by
        rw [handleControlMsg_swap_drops (c := { c with controlMsg := c.controlMsg.poll.2 }) hs]
          at hc
        exact (Option.some.inj hc).symm
      have hopen : ∀ x, (c'.chans.cell x).chan.isOpen =
          ((c.chans.modify n ErrorChan.dropReceiver).cell x).chan.isOpen := fun x => by
        rw [hc']
        exact Store.modify_cell_congr _ ErrorChan.dropSender (fun ch => ch.chan.isOpen) rfl x
      refine ⟨by rw [hc']; rfl, fun x => ?_, fun hh _ a ha ho => ?_⟩
      · rw [hc']
        exact (Store.modify_cell_congr _ ErrorChan.dropSender (fun ch => ch.errorState) rfl x).trans
          (c.chans.modify_cell_congr ErrorChan.dropReceiver (fun ch => ch.errorState) rfl x)
      · rw [hopen] at ho
        rcases eq_or_ne a n with rfl | hne
        · rw [Store.modify_cell_self] at ho
          exact absurd ho Bool.false_ne_true
        · rw [Store.modify_cell_of_ne _ _ hne] at ho
          obtain ⟨o', hm⟩ := hh hs a ha ho
          refine ⟨o', ?_⟩
          rw [hq, List.mem_cons] at hm
          rw [hc', Chan.poll_queue, hq, List.tail_cons]
          exact hm.resolve_left fun he => hne (Message.swapSendData.inj he).1
    · obtain ⟨c₁, hc₁, hsw⟩ := handleControlMsg_swap
        (c := { c with controlMsg := c.controlMsg.poll.2 }) hs n o
      obtain rfl := Option.some.inj (hc₁.symm.trans hc)
      obtain ⟨chans, hframe⟩ := hsw.frame
      exact ⟨hsw.next, hsw.errorState, fun _ hn => by simp [hframe] at hn⟩

theorem Linked.pollControlMsg_errorsKept (h : c.Linked cur) :
    ∃ r c', c.pollControlMsg = some (r, c') ∧ Kept cur c c' ∧ ErrorsKept cur c c' := by
  have hpop : ∀ c' : Context, c'.controlMsg.queue = [] →
      ErrorsKept cur c' { c' with controlMsg := c'.controlMsg.poll.2 } :=
    fun c' hq => .of_eq rfl rfl (by simp [hq])
  refine Context.pollControlMsg_rule (P := fun c' => Kept cur c c' ∧ ErrorsKept cur c c')
    ?_ ?_ ?_ ⟨.refl h, .refl c⟩
  · rintro c' msg q ⟨hk, hE⟩ hq
    obtain ⟨c₁, hc₁, hk₁⟩ := handleControlMsg_kept hk.linked hq
    exact ⟨c₁, hc₁, hk.trans hk₁, hE.trans (handleControlMsg_errorsKept hk.linked hq hc₁)⟩
  · rintro c' ⟨hk, hE⟩ hq -
    have hk' := hk.trans (hk.linked.pollEmpty hq)
    exact ⟨hk'.trans (recvMessageDropped_kept hk'.linked),
      hE.trans ((hpop c' hq).trans (.of_recvEffect (recvMessageDropped_effect _)))⟩
  · rintro c' ⟨hk, hE⟩ hq -
    exact ⟨hk.trans (hk.linked.pollEmpty hq), hE.trans (hpop c' hq)⟩

theorem handleCallback_errorsKept (h : c.Linked cur) {cb : Callback}
    (hc : c.handleCallback cb = some c') : ErrorsKept cur c c' := by
  cases cb with
  | prepareToSend dest n =>
    cases dest with
    | none => simp [handleCallback, Context.handleSendData] at hc
    | some dest =>
      obtain ⟨c₁, hc₁, hspec⟩ := handleSendData_spec dest n h.slotDistinct
      obtain rfl := Option.some.inj (hc₁.symm.trans hc)
      exact handleSendData_errorsKept hspec
  | data bytes event =>
    obtain ⟨c₁, he, hqueue, hc₁⟩ := handleCallback_data (c := c) bytes event
    obtain rfl := Option.some.inj (hc₁.symm.trans hc)
    have hl : c₁.Linked cur := h.of_recvEffect he fun n o hm => by
      rcases hqueue _ hm with hm | hm | hm | hm
      · exact h.recv n o hm
      all_goals simp at hm
    split
    · obtain ⟨chans, hclose, hg⟩ := closeSendData_spec { c₁ with stopSendingOrFinSent := true }
      exact (ErrorsKept.of_recvEffect he).trans
        (.of_givenUp hl hg (by rw [hclose]) (by rw [hclose]))
    · exact .of_recvEffect he

/-- The application replaced its sender `a` after the context was dropped: both ends of
the swap are dropped. -/
def dropSwap (c : Context) (a : ChanRef) : Context :=
  { c with chans := dropMessage (c.chans.alloc ErrorChan.new) (.swapSendData c.chans.next a) }

/-- Dropping messages closes the channels under way, and leaves all errors. -/
theorem dropMessages_spec (q : List Message) (h : Store (ErrorChan Bytes)) :
    (q.foldl dropMessage h).next = h.next ∧
    (∀ x, ((q.foldl dropMessage h).cell x).errorState = (h.cell x).errorState) ∧
    (∀ x, (h.cell x).chan.isOpen = false → ((q.foldl dropMessage h).cell x).chan.isOpen = false) ∧
    ∀ n o, Message.swapSendData n o ∈ q → ((q.foldl dropMessage h).cell n).chan.isOpen = false := by
  induction q generalizing h with
  | nil => exact ⟨rfl, fun _ => rfl, fun _ ho => ho, by simp⟩
  | cons m q ih =>
    obtain ⟨hnext, herr, hclosed, hq⟩ := ih (dropMessage h m)
    rw [List.foldl_cons]
    cases m with
    | swapSendData n o =>
      have hopen : ∀ x, ((dropMessage h (.swapSendData n o)).cell x).chan.isOpen =
          ((h.modify n ErrorChan.dropReceiver).cell x).chan.isOpen :=
        Store.modify_cell_congr _ ErrorChan.dropSender (fun ch => ch.chan.isOpen) rfl
      have hn : ((dropMessage h (.swapSendData n o)).cell n).chan.isOpen = false := by
        rw [hopen, Store.modify_cell_self]
        rfl
      refine ⟨hnext, fun x => (herr x).trans ?_, fun x ho => hclosed x ?_, fun n' o' hm => ?_⟩
      · exact (Store.modify_cell_congr _ ErrorChan.dropSender (fun ch => ch.errorState) rfl x).trans
          (h.modify_cell_congr ErrorChan.dropReceiver (fun ch => ch.errorState) rfl x)
      · rcases eq_or_ne x n with rfl | hne
        · exact hn
        · rw [hopen, Store.modify_cell_of_ne _ _ hne, ho]
      · rcases List.mem_cons.mp hm with he | hm
        · obtain ⟨rfl, -⟩ := Message.swapSendData.inj he
          exact hclosed _ hn
        · exact hq n' o' hm
    | _ => exact ⟨hnext, herr, hclosed, fun n o hm => hq n o (by simpa using hm)⟩

/-- **With the context, the channel the application sends on is closed**, and keeps its
error. -/
theorem drop_errorsKept (h : c.Linked cur) (hh : c.Held cur) :
    c.drop.chans.next = c.chans.next ∧
    (∀ q, (c.drop.chans.cell q).errorState = (c.chans.cell q).errorState) ∧
    ∀ a, cur = some a → (c.drop.chans.cell a).chan.isOpen = false := by
  obtain ⟨c₁, hc₁, hq₁, hs₁, hl₁, hch₁⟩ : ∃ c₁ : Context,
      c.drop.chans = c.controlMsg.queue.foldl dropMessage c₁.closeSendData.chans ∧
      c₁.controlMsg = c.controlMsg ∧ c₁.sendData = c.sendData ∧ c₁.Linked cur ∧
      c₁.chans = c.chans := by
    cases ho : c.recvMsg.isOpen with
    | true =>
      refine ⟨{ c with recvMsg := c.recvMsg.push .close }, ?_, rfl, rfl, ?_, rfl⟩
      · obtain ⟨chans, hc, -⟩ := closeSendData_spec { c with recvMsg := c.recvMsg.push .close }
        simp only [drop, Chan.unboundedSend_of_open ho, hc]
      · exact ⟨by simpa using h.recv, h.control, h.active, h.chain⟩
    | false =>
      refine ⟨c, ?_, rfl, rfl, h, rfl⟩
      obtain ⟨chans, hc, -⟩ := closeSendData_spec c
      simp only [drop, Chan.unboundedSend_of_closed ho, hc]
  have hk := closeSendData_errorsKept hl₁
  have hheld : c₁.closeSendData.Held cur := hk.held (by rw [Held, hs₁, hch₁, hq₁]; exact hh)
  obtain ⟨hnext, herr, hclosed, hmem⟩ := dropMessages_spec c.controlMsg.queue c₁.closeSendData.chans
  obtain ⟨chans, hc, -⟩ := closeSendData_spec c₁
  rw [hc₁]
  refine ⟨hnext.trans (hk.next.trans (by rw [hch₁])),
    fun q => (herr q).trans ((hk.errorState q).trans (by rw [hch₁])), fun a ha => ?_⟩
  cases ho : (c₁.closeSendData.chans.cell a).chan.isOpen with
  | false => exact hclosed a ho
  | true =>
    obtain ⟨o, hm⟩ := hheld (by rw [hc]) a ha ho
    exact hmem a o (by rwa [hc, hq₁] at hm)

end Context

/-! ### The error of a pair -/

/-- The connection has an error. -/
def Event.isConnectionError : Event → Bool
  | .connectionError _ => true
  | _ => false

/-- The application replaces its sender. -/
def Event.isSwap : Event → Bool
  | .setSendChannelSize => true
  | _ => false

namespace Pair

variable {p p' : Pair} {s : Stream} {E : ChanRef → Option Error} {e : Event}

/-- **The errors left in the channels are `E`**, and a channel that is open has a
receiver somewhere. -/
structure Traced (p : Pair) (E : ChanRef → Option Error) : Prop where
  linked : p.Linked
  held : p.ctx.Held p.cur
  /-- A context that was dropped has no messages. -/
  gone : p.alive = false → p.ctx.controlMsg.queue = []
  errors : ∀ q, (p.ctx.chans.cell q).errorState = E q
  known : ∀ q, E q ≠ none → q < p.ctx.chans.next

namespace Traced

/-- A function of the context left the errors where they are. -/
theorem of_errorsKept (h : p.Traced E) (ha : p.alive = true) {c' : Context}
    (hk : ErrorsKept p.cur p.ctx c') (hl : { p with ctx := c' }.Linked) :
    { p with ctx := c' }.Traced E where
  linked := hl
  held := hk.held h.held
  gone hgone := by simp [ha] at hgone
  errors q := (hk.errorState q).trans (h.errors q)
  known q hq := hk.next ▸ h.known q hq

/-- The context is dropped. -/
theorem drop (h : p.Traced E) (ha : p.alive = true) :
    { p with ctx := p.ctx.drop, alive := false }.Traced E := by
  obtain ⟨hnext, herr, hclosed⟩ := drop_errorsKept h.linked.ctx h.held
  obtain ⟨chans, hc⟩ := drop_spec p.ctx
  exact {
    linked := h.linked.drop ha
    held := fun _ a hcur ho => by
      rw [hclosed a hcur] at ho
      exact absurd ho Bool.false_ne_true
    gone := fun _ => by rw [hc]; rfl
    errors := fun q => (herr q).trans (h.errors q)
    known := fun q hq => hnext ▸ h.known q hq }

/-- **Once the context is dropped, the channel the application sends on is closed.** -/
theorem closed (h : p.Traced E) (ha : p.alive = false) {a : ChanRef} (hcur : p.cur = some a) :
    (p.ctx.chans.cell a).chan.isOpen = false := by
  cases ho : (p.ctx.chans.cell a).chan.isOpen with
  | false => rfl
  | true =>
    obtain ⟨o, hm⟩ := h.held (h.linked.dropped ha) a hcur ho
    simp [h.gone ha] at hm

/-- **The application leaves the errors where they are.** It sends on a fresh channel
after a swap, and on the same as before otherwise. -/
theorem stepStream (h : p.Traced E) (hs : p.stream = some s) (hl : p'.Linked)
    (he : e.atStream = true) (hstep : p.stepStream s e = some p') :
    p'.Traced E ∧ ∀ s', p'.stream = some s' →
      if e.isSwap = true then s.sendData ≠ none → s'.sendData = some p.ctx.chans.next
      else s'.sendData = s.sendData := by
  have hcur : p.cur = s.sendData := by simp [cur, hs]
  have hheld := h.held
  rw [hcur] at hheld
  -- what the fresh channel of a swap is like
  have hfresh : E p.ctx.chans.next = none := by
    by_contra hne
    exact absurd (h.known _ hne) (lt_irrefl _)
  have halloc : ∀ q, ((p.ctx.chans.alloc ErrorChan.new).cell q).errorState = E q := fun q => by
    rcases eq_or_ne q p.ctx.chans.next with rfl | hne
    · rw [Store.alloc_cell_self, hfresh]
      rfl
    · rw [Store.alloc_cell_of_ne _ _ hne, h.errors]
  cases e with
  | startSend item room =>
    rcases stepStream_startSend (p := p) (s := s) item room with ⟨r, -, -, h'⟩ | h' <;>
      obtain rfl := Option.some.inj (h'.symm.trans hstep)
    · refine ⟨⟨hl, fun hn a ha ho => h.held hn a ha ?_, h.gone, fun q => ?_, h.known⟩, ?_⟩
      · rw [← ho]
        exact (p.ctx.chans.modify_cell_congr (fun ch => { ch with chan := ch.chan.push item })
          (fun ch => ch.chan.isOpen) rfl a).symm
      · rw [← h.errors]
        exact p.ctx.chans.modify_cell_congr (fun ch => { ch with chan := ch.chan.push item })
          (fun ch => ch.errorState) rfl q
      · rintro s' hs'
        obtain rfl := Option.some.inj (hs.symm.trans hs')
        rfl
    · refine ⟨h, fun s' hs' => ?_⟩
      obtain rfl := Option.some.inj (hs.symm.trans hs')
      rfl
  | setSendChannelSize =>
    rcases stepStream_setSendChannelSize hs with
      ⟨hn, h'⟩ | ⟨a, c', ha, h', ⟨ho, rfl⟩ | ⟨ho, -⟩⟩
    · obtain rfl := Option.some.inj (h'.symm.trans hstep)
      exact ⟨h, fun s' _ hne => absurd hn hne⟩
    · obtain rfl := Option.some.inj (h'.symm.trans hstep)
      refine ⟨⟨hl, ?_, ?_, halloc, fun q hq => (h.known q hq).trans (Nat.lt_succ_self _)⟩, ?_⟩
      · -- the receiver of the fresh channel is under way
        intro _ b hb _
        obtain rfl : p.ctx.chans.next = b := by simpa [cur] using hb
        exact ⟨a, by simp [pushSwap]⟩
      · intro hgone
        have hends := congrArg (fun e => e.2.1) h.linked.ends
        exact absurd (hends.symm.trans ho) (by simpa using hgone)
      · rintro s' hs' -
        obtain rfl := Option.some.inj hs'
        rfl
    · -- the receiver of the fresh channel is dropped at once
      have h'' : p.stepStream s .setSendChannelSize = some { p with
          stream := some { s with sendData := some p.ctx.chans.next }
          ctx := p.ctx.dropSwap a } := by
        simp only [Pair.stepStream, Stream.setSendChannelSize, ha, Chan.unboundedSend_of_closed ho,
          dropSwap]
      obtain rfl := Option.some.inj (h''.symm.trans hstep)
      obtain ⟨hnext, herr, -, hclosed⟩ := dropMessages_spec [.swapSendData p.ctx.chans.next a]
        (p.ctx.chans.alloc ErrorChan.new)
      refine ⟨⟨hl, ?_, h.gone, fun q => (herr q).trans (halloc q),
        fun q hq => (h.known q hq).trans_le (Nat.le_succ _)⟩, ?_⟩
      · intro _ b hb hopen
        obtain rfl : p.ctx.chans.next = b := by simpa [cur] using hb
        have := hclosed p.ctx.chans.next a (by simp)
        exact absurd (this.symm.trans hopen) Bool.false_ne_true
      · rintro s' hs' -
        obtain rfl := Option.some.inj hs'
        rfl
  | reset =>
    rcases stepStream_reset (p := p) (s := s) with ⟨ho, h'⟩ | ⟨-, h'⟩ <;>
      obtain rfl := Option.some.inj (h'.symm.trans hstep)
    · refine ⟨⟨hl, fun hn a ha hopen => ?_, fun hgone => ?_, h.errors, h.known⟩, fun s' hs' => ?_⟩
      · obtain ⟨o, hm⟩ := h.held hn a ha hopen
        exact ⟨o, List.mem_append_left _ hm⟩
      · have hends := congrArg (fun e => e.2.1) h.linked.ends
        exact absurd (hends.symm.trans ho) (by simpa using hgone)
      · obtain rfl := Option.some.inj (hs.symm.trans hs')
        rfl
    · refine ⟨h, fun s' hs' => ?_⟩
      obtain rfl := Option.some.inj (hs.symm.trans hs')
      rfl
  | pollStream =>
    obtain ⟨o, s', hpoll, hsd, -⟩ := Stream.poll_frame s p.ctx h.linked.ctx.recv
    obtain rfl := Option.some.inj ((stepStream_pollStream hpoll).symm.trans hstep)
    refine ⟨⟨hl, fun hn a ha ho => hheld hn a ?_ ho, h.gone, h.errors, h.known⟩, fun s'' hs'' => ?_⟩
    · rw [← hsd]
      simpa [cur] using ha
    · obtain rfl := Option.some.inj hs''
      exact hsd
  | dropStream =>
    obtain rfl := Option.some.inj hstep
    refine ⟨⟨hl, fun _ a ha => by simp [cur] at ha, h.gone, fun q => ?_, fun q hq => ?_⟩, by simp⟩
    · rw [← h.errors]
      simp only [Stream.drop]
      cases s.sendData with
      | none => rfl
      | some a =>
        exact p.ctx.chans.modify_cell_congr ErrorChan.dropSender (fun ch => ch.errorState) rfl q
    · have hk := h.known q hq
      simp only [Stream.drop]
      cases s.sendData <;> exact hk
  | _ => simp [Event.atStream] at he

/-- **Without an error of the connection, the event loop leaves the errors where they
are**, and the application has its sender. -/
theorem stepContext (h : p.Traced E) (ha : p.alive = true) (hl : p'.Linked)
    (he : e.atStream = false) (herr : e.isConnectionError = false)
    (hstep : p.stepContext e = some p') : p'.Traced E ∧ p'.stream = p.stream := by
  cases e with
  | callback cb =>
    cases hc : p.ctx.handleCallback cb with
    | none => simp [Pair.stepContext, hc] at hstep
    | some c' =>
      obtain rfl := Option.some.inj ((stepContext_callback hc).symm.trans hstep)
      exact ⟨h.of_errorsKept ha (handleCallback_errorsKept h.linked.ctx hc) hl, rfl⟩
  | pollControlMsg =>
    obtain ⟨r, c', hc', -, hk⟩ := h.linked.ctx.pollControlMsg_errorsKept
    obtain rfl := Option.some.inj ((stepContext_pollControlMsg hc').symm.trans hstep)
    exact ⟨h.of_errorsKept ha hk hl, rfl⟩
  | pollSendData =>
    obtain rfl := Option.some.inj hstep
    exact ⟨h.of_errorsKept ha (pollSendData_errorsKept h.linked.ctx) hl, rfl⟩
  | poll =>
    obtain ⟨r, c', hc', hk, hE⟩ := h.linked.ctx.pollControlMsg_errorsKept
    obtain rfl := Option.some.inj ((stepContext_poll hc').symm.trans hstep)
    have h' : { p with ctx := c'.pollSendData }.Traced E :=
      h.of_errorsKept ha (hE.trans (pollSendData_errorsKept hk.linked))
        (h.linked.of_kept (hk.trans (pollSendData_kept hk.linked)) rfl rfl)
    split
    · exact ⟨h'.drop ha, rfl⟩
    · exact ⟨h', rfl⟩
  | connectionError err => simp [Event.isConnectionError] at herr
  | connectionClose =>
    obtain rfl := Option.some.inj hstep
    exact ⟨h.of_errorsKept ha (.of_recvEffect (recvMessage_effect _ _)) hl, rfl⟩
  | dropContext =>
    obtain rfl := Option.some.inj hstep
    exact ⟨h.drop ha, rfl⟩
  | _ => simp [Event.atStream] at he

/-- **Every step but an error of the connection leaves the errors where they are.** -/
theorem step (h : p.Traced E) (herr : e.isConnectionError = false) (hstep : p.step e = some p') :
    p'.Traced E ∧ ∀ s', p'.stream = some s' → ∃ s, p.stream = some s ∧
      if e.isSwap = true then s.sendData ≠ none → s'.sendData = some p.ctx.chans.next
      else s'.sendData = s.sendData := by
  have hl := h.linked.of_step hstep
  rcases step_cases hstep with ⟨s, he, hs, hstep⟩ | ⟨he, ha, hstep⟩ | ⟨rfl, hvoid, -⟩
  · obtain ⟨h', hcur⟩ := h.stepStream hs hl he hstep
    exact ⟨h', fun s' hs' => ⟨s, hs, hcur s' hs'⟩⟩
  · obtain ⟨h', hs⟩ := h.stepContext ha hl he herr hstep
    refine ⟨h', fun s' hs' => ⟨s', hs ▸ hs', ?_⟩⟩
    have hswap : e.isSwap = false := by
      cases e <;> first | rfl | simp [Event.atStream] at he
    simp [hswap]
  · refine ⟨h, fun s' hs' => ⟨s', hs', ?_⟩⟩
    have hswap : e.isSwap = false := by
      cases hsw : e.isSwap with
      | false => rfl
      | true =>
        have : e.atStream = true := by
          cases e <;> first | rfl | simp [Event.isSwap] at hsw
        simp [hvoid this] at hs'
    simp [hswap]

end Traced

/-! ### Before the error -/

end Pair

/-- The send half is ended, by the application or by the peer. -/
def Event.endsSending : Event → Bool
  | .reset | .callback (.data _ .stopSending) => true
  | _ => false

namespace Pair

variable {p p' : Pair} {s : Stream} {e : Event}

/-- **The send half was not ended**: no error was left in a channel, and while both ends
are there the context has a receiver. -/
structure Sends (p : Pair) : Prop where
  traced : p.Traced fun _ => none
  control : Message.reset ∉ p.ctx.controlMsg.queue
  sending : ∀ s, p.stream = some s → p.alive = true → p.ctx.sendData ≠ none

namespace Sends

/-- Handling control messages gives up no receiver. -/
theorem pollControlMsg (h : p.Sends) : ∃ r c', p.ctx.pollControlMsg = some (r, c') ∧
    Kept p.cur p.ctx c' ∧ Message.reset ∉ c'.controlMsg.queue ∧
      (p.ctx.sendData ≠ none → c'.sendData ≠ none) := by
  refine h.traced.linked.ctx.pollControlMsg_rule (P := fun c' =>
    Message.reset ∉ c'.controlMsg.queue ∧ (p.ctx.sendData ≠ none → c'.sendData ≠ none))
    ?_ ?_ ⟨h.control, fun h => h⟩
  · rintro c c' ⟨hq, hs⟩ hi
    exact ⟨by rwa [hi.control], fun hne => hi.sendData ▸ hs hne⟩
  · rintro c c' msg q hl ⟨hq, hs⟩ hmsg hc
    have hctl : c'.controlMsg.queue = q := by
      rw [handleControlMsg_controlMsg hc, Chan.poll_queue, hmsg, List.tail_cons]
    rw [hmsg] at hq
    refine ⟨by rw [hctl]; exact fun hm => hq (List.mem_cons_of_mem _ hm), fun hne => ?_⟩
    rcases hl.control msg (by simp [hmsg]) with rfl | ⟨n, o, rfl⟩
    · exact absurd List.mem_cons_self hq
    · obtain ⟨s, hsome⟩ := Option.ne_none_iff_exists'.mp (hs hne)
      obtain ⟨c₁, hc₁, hsw⟩ := handleControlMsg_swap
        (c := { c with controlMsg := c.controlMsg.poll.2 }) hsome n o
      obtain rfl := Option.some.inj (hc₁.symm.trans hc)
      obtain ⟨chans, hframe⟩ := hsw.frame
      simp [hframe]

/-- Polling for data gives up no receiver, while the application has its end. -/
theorem pollSendData (hl : p.Linked) (hs : p.stream = some s) (hsd : p.ctx.sendData ≠ none) :
    p.ctx.pollSendData.sendData ≠ none := by
  rcases pollSendData_cases hl.ctx.slotDistinct with
    ⟨-, hc⟩ | ⟨sw, sw', chans, c₁, -, hsw, hc₁, -, -, -, hcase⟩
  · rwa [hc]
  · rcases hcase with ⟨buf, q, -, hc⟩ | ⟨-, hend, -⟩ | ⟨-, -, hc⟩
    · simp [hc, hc₁]
    · have := (hl.stream_eq_none hsw hend).1
      simp [hs] at this
    · simp [hc, hc₁]

theorem stepStream (h : p.Sends) (hs : p.stream = some s) (ht : p'.Traced fun _ => none)
    (he : e.atStream = true) (hend : e.endsSending = false) (hstep : p.stepStream s e = some p') :
    p'.Sends := by
  cases e with
  | startSend item room =>
    rcases stepStream_startSend (p := p) (s := s) item room with ⟨r, -, -, h'⟩ | h' <;>
      obtain rfl := Option.some.inj (h'.symm.trans hstep) <;>
      exact ⟨ht, h.control, fun s' _ ha => h.sending s hs ha⟩
  | setSendChannelSize =>
    rcases stepStream_setSendChannelSize hs with
      ⟨-, h'⟩ | ⟨a, c', -, h', ⟨-, rfl⟩ | ⟨-, chans, rfl⟩⟩ <;>
      obtain rfl := Option.some.inj (h'.symm.trans hstep)
    · exact h
    · exact ⟨ht, by simpa [pushSwap] using h.control, fun s' _ ha => h.sending s hs ha⟩
    · exact ⟨ht, h.control, fun s' _ ha => h.sending s hs ha⟩
  | reset => simp [Event.endsSending] at hend
  | pollStream =>
    obtain ⟨o, s', hpoll, -⟩ := Stream.poll_frame s p.ctx h.traced.linked.ctx.recv
    obtain rfl := Option.some.inj ((stepStream_pollStream hpoll).symm.trans hstep)
    exact ⟨ht, h.control, fun s' _ ha => h.sending s hs ha⟩
  | dropStream =>
    obtain rfl := Option.some.inj hstep
    exact ⟨ht, h.control, by simp⟩
  | _ => simp [Event.atStream] at he

theorem stepContext (h : p.Sends) (ha : p.alive = true) (ht : p'.Traced fun _ => none)
    (he : e.atStream = false) (hend : e.endsSending = false)
    (hstep : p.stepContext e = some p') : p'.Sends := by
  cases e with
  | callback cb =>
    cases cb with
    | prepareToSend dest n =>
      cases dest with
      | none => simp [Pair.stepContext, handleCallback, Context.handleSendData] at hstep
      | some dest =>
        obtain ⟨c', hc', hspec⟩ := handleSendData_spec dest n h.traced.linked.ctx.slotDistinct
        obtain rfl := Option.some.inj
          ((@stepContext_callback p (.prepareToSend (some dest) n) c' hc').symm.trans hstep)
        obtain ⟨sd, ch, pl, ab, hframe, hpoll⟩ := hspec.frame
        refine ⟨ht, by rw [hframe]; exact h.control, fun s hs _ hn => ?_⟩
        have hsd := h.sending s hs ha
        simp only [hframe] at hn
        rcases hpoll.moved with hm | ⟨sw, r, -, -, hm⟩
        · exact hsd (hm ▸ hn)
        · simp [hn] at hm
    | data bytes event =>
      obtain ⟨c₁, heff, -, hc⟩ := handleCallback_data (c := p.ctx) bytes event
      obtain rfl := Option.some.inj ((stepContext_callback hc).symm.trans hstep)
      have hne : event ≠ .stopSending := by
        rintro rfl
        simp [Event.endsSending] at hend
      obtain ⟨hs₁, -, hq₁, -⟩ := heff.frame_eq
      refine ⟨ht, ?_, fun s hs _ => ?_⟩
      · simp only [if_neg hne, hq₁]
        exact h.control
      · simp only [if_neg hne, hs₁]
        exact h.sending s hs ha
  | pollControlMsg =>
    obtain ⟨r, c', hc', -, hq, hs⟩ := h.pollControlMsg
    obtain rfl := Option.some.inj ((stepContext_pollControlMsg hc').symm.trans hstep)
    exact ⟨ht, hq, fun s hst _ => hs (h.sending s hst ha)⟩
  | pollSendData =>
    obtain rfl := Option.some.inj hstep
    refine ⟨ht, ?_, fun s hs _ => ?_⟩
    · rw [pollSendData_controlMsg h.traced.linked.ctx.slotDistinct]
      exact h.control
    · exact pollSendData h.traced.linked hs (h.sending s hs ha)
  | poll =>
    obtain ⟨r, c', hc', hk, hq, hsd⟩ := h.pollControlMsg
    obtain rfl := Option.some.inj ((stepContext_poll hc').symm.trans hstep)
    have hl : { p with ctx := c' }.Linked := h.traced.linked.of_kept hk rfl rfl
    split
    · obtain ⟨chans, hd⟩ := drop_spec c'.pollSendData
      rw [if_pos ‹_›] at ht
      exact ⟨ht, by rw [hd]; simp [Chan.dropReceiver], by simp⟩
    · rw [if_neg ‹_›] at ht
      refine ⟨ht, ?_, fun s hs _ => pollSendData (p := { p with ctx := c' }) hl hs
        (hsd (h.sending s hs ha))⟩
      rw [pollSendData_controlMsg hl.ctx.slotDistinct]
      exact hq
  | connectionError err =>
    obtain rfl := Option.some.inj hstep
    have hi := handleConnectionError_idle p.ctx err
    exact ⟨ht, by rw [hi.control]; exact h.control, fun s hs _ => hi.sendData ▸ h.sending s hs ha⟩
  | connectionClose =>
    obtain rfl := Option.some.inj hstep
    have hi := (recvMessage_effect p.ctx .close).idle
    exact ⟨ht, by rw [handleConnectionClose, hi.control]; exact h.control,
      fun s hs _ => hi.sendData ▸ h.sending s hs ha⟩
  | dropContext =>
    obtain rfl := Option.some.inj hstep
    obtain ⟨chans, hd⟩ := drop_spec p.ctx
    exact ⟨ht, by rw [hd]; simp [Chan.dropReceiver], by simp⟩
  | _ => simp [Event.atStream] at he

/-- **Every step that ends neither half nor the connection keeps the send half.** -/
theorem step (h : p.Sends) (hend : e.endsSending = false) (herr : e.isConnectionError = false)
    (hstep : p.step e = some p') : p'.Sends := by
  have ht := (h.traced.step herr hstep).1
  rcases step_cases hstep with ⟨s, he, hs, hstep⟩ | ⟨he, ha, hstep⟩ | ⟨rfl, -⟩
  · exact h.stepStream hs ht he hend hstep
  · exact h.stepContext ha ht he hend hstep
  · exact h

end Sends

theorem new_sends {id : Id} {isClientCon : Bool} (h : HasSendHalf id isClientCon) :
    (Streams.new id isClientCon).Sends := by
  have hd : ¬ (isUnidirectional id && !isUnidirectionalSendAllowed id isClientCon) = true := by
    rcases h with h | h <;> simp [h]
  have hl := new_linked id isClientCon
  simp only [Streams.new, createSendAndRecvData, if_neg hd] at hl ⊢
  exact {
    traced := {
      linked := hl
      held := by simp [Held, Context.new]
      gone := by simp
      errors := fun q => by
        rcases eq_or_ne q 0 with rfl | hne
        · simp [Context.new, Context.pollReceiver, ErrorChan.new, ErrorChan.poll, Store.alloc]
        · simp [Context.new, Context.pollReceiver, ErrorChan.new, Store.alloc, Store.modify, hne]
      known := by simp }
    control := by simp [Context.new, Chan.new]
    sending := by simp [Context.new] }

/-! ### After the error -/

/-- The active receiver is one of the channels made so far. -/
theorem Linked.active_lt (hl : p.Linked) (hs : p.stream = some s) {sw : SwappableStream ChanRef}
    (hsw : p.ctx.sendData = some sw) : sw.activeStream < p.ctx.chans.next := by
  obtain ⟨a, hsome⟩ := Option.ne_none_iff_exists'.mp (hl.paired s hs (by simp [hsw]))
  have hctx := hl.ctx
  rw [show p.cur = some a by simp [cur, hs, hsome]] at hctx
  have hle := (hctx.chain sw hsw).le_cur
  cases hn : sw.swapTo with
  | none =>
    rw [hn] at hle
    exact hle.1.trans_lt hle.2.1
  | some r =>
    rw [hn] at hle
    exact ((hctx.active sw r hsw hn).1.trans_le hle.1).trans hle.2.1

/-- **The error is left at the active receiver**, if there is one. -/
theorem Traced.connectionError {E : ChanRef → Option Error} (h : p.Traced E) (ha : p.alive = true)
    (hs : p.stream = some s) (err : Error) :
    { p with ctx := p.ctx.handleConnectionError err }.Traced fun q =>
      if p.ctx.sendData.map SwappableStream.activeStream = some q then some err else E q := by
  have hl := h.linked
  have hi := handleConnectionError_idle p.ctx err
  obtain ⟨c₁, chans, -, hc, hnext, -, herr⟩ := handleConnectionError_spec p.ctx err
  exact {
    linked := hl.of_kept (handleConnectionError_kept hl.ctx err) rfl rfl
    held := fun hn a hcur ho => by
      obtain ⟨o, hm⟩ := h.held (hi.sendData ▸ hn) a hcur (hi.chan a ▸ ho)
      exact ⟨o, hi.control.symm ▸ hm⟩
    gone := fun hgone => by simp [ha] at hgone
    errors := fun q => by rw [hc, herr, h.errors]
    known := fun q hq => by
      rw [hi.next]
      split at hq
      · rename_i hactive
        obtain ⟨sw, hsw, rfl⟩ := Option.map_eq_some_iff.mp hactive
        exact hl.active_lt hs hsw
      · exact h.known q hq }

/-- The application then holds the sender of this receiver, unless a swap is under way. -/
theorem Sends.connectionError (h : p.Sends) (ha : p.alive = true) (hs : p.stream = some s)
    (err : Error) : ∃ sw a, p.ctx.sendData = some sw ∧ s.sendData = some a ∧
      (a = sw.activeStream ↔ p.ctx.NoSwap) ∧
      { p with ctx := p.ctx.handleConnectionError err }.Traced
        (fun q => if q = sw.activeStream then some err else none) := by
  have hl := h.traced.linked
  have hsd := h.sending s hs ha
  obtain ⟨sw, hsw⟩ := Option.ne_none_iff_exists'.mp hsd
  obtain ⟨a, hsome⟩ := Option.ne_none_iff_exists'.mp (hl.paired s hs hsd)
  have hctx := hl.ctx
  rw [show p.cur = some a by simp [cur, hs, hsome]] at hctx
  refine ⟨sw, a, hsw, hsome, hctx.cur_eq_active_iff hsw, ?_⟩
  have ht := h.traced.connectionError ha hs err
  simpa [hsw, eq_comm] using ht

theorem stepContext_stream (h : p.stepContext e = some p') : p'.stream = p.stream := by
  cases e with
  | callback cb =>
    cases hc : p.ctx.handleCallback cb with
    | none => simp [Pair.stepContext, hc] at h
    | some c' =>
      obtain rfl := Option.some.inj ((stepContext_callback hc).symm.trans h)
      rfl
  | pollControlMsg =>
    cases hc : p.ctx.pollControlMsg with
    | none => simp [Pair.stepContext, hc] at h
    | some rc =>
      obtain rfl := Option.some.inj ((stepContext_pollControlMsg hc).symm.trans h)
      rfl
  | poll =>
    cases hc : p.ctx.pollControlMsg with
    | none => simp [Pair.stepContext, Context.poll, hc] at h
    | some rc =>
      obtain rfl := Option.some.inj ((stepContext_poll hc).symm.trans h)
      split <;> rfl
  | _ =>
    obtain rfl := Option.some.inj h
    rfl

/-- The `Stream` does not come back. -/
theorem run_stream {es : List Event} (hrun : p.run es = some p') (hs : p'.stream = some s) :
    ∃ s₀, p.stream = some s₀ := by
  refine Option.ne_none_iff_exists'.mp fun hn => ?_
  have hnone : p'.stream = none := Trace.run_keeps
    (P := fun p : Pair => p.stream = none) (fun p e _ p' h hstep => by
      rcases step_cases hstep with ⟨s, -, hs, -⟩ | ⟨-, -, hstep⟩ | ⟨rfl, -⟩
      · simp [h] at hs
      · exact (stepContext_stream hstep).trans h
      · exact h) hn hrun
  simp [hnone] at hs

/-- **Which channel the application sends on at the end of a run**: the channel `A` if it
sent on it at the start, and was not swapped since. -/
theorem Traced.run_cur {E : ChanRef → Option Error} (h : p.Traced E) {A : ChanRef} (hA : E A ≠ none)
    {b : Bool} (hb : ∀ s, p.stream = some s → ∃ r, s.sendData = some r ∧ (r = A ↔ b = true))
    {es : List Event} (hno : ∀ e ∈ es, e.isConnectionError = false) (hrun : p.run es = some p') :
    p'.Traced E ∧ ∀ s, p'.stream = some s → ∃ r, s.sendData = some r ∧
      (r = A ↔ b = true ∧ ∀ e ∈ es, e.isSwap = false) := by
  have hstep : ∀ (p : Pair) (b : Bool) (e : Event) (p' : Pair),
      (p.Traced E ∧ ∀ s, p.stream = some s → ∃ r, s.sendData = some r ∧ (r = A ↔ b = true)) →
      e.isConnectionError = false → p.step e = some p' →
      p'.Traced E ∧ ∀ s, p'.stream = some s →
        ∃ r, s.sendData = some r ∧ (r = A ↔ (b && !e.isSwap) = true) := by
    rintro p b e p' ⟨h, hb⟩ herr hstep
    obtain ⟨h', hcur⟩ := h.step herr hstep
    refine ⟨h', fun s' hs' => ?_⟩
    obtain ⟨s, hs, heq⟩ := hcur s' hs'
    obtain ⟨r, hr, hiff⟩ := hb s hs
    cases hswap : e.isSwap with
    | true =>
      -- the fresh channel is newer than any with an error
      rw [hswap, if_pos rfl] at heq
      refine ⟨_, heq (by simp [hr]), ?_⟩
      have hne : p.ctx.chans.next ≠ A := (h.known A hA).ne'
      simp [hne]
    | false =>
      rw [hswap, if_neg Bool.false_ne_true] at heq
      exact ⟨r, heq.trans hr, by simpa using hiff⟩
  have hfold : ∀ (es : List Event) (b : Bool),
      es.foldl (fun b e => b && !e.isSwap) b = true ↔ b = true ∧ ∀ e ∈ es, e.isSwap = false := by
    intro es
    induction es with
    | nil => simp
    | cons e es ih =>
      intro b
      rw [List.foldl_cons, ih]
      simp [and_assoc]
  obtain ⟨h', hcur⟩ := Trace.run_tracks hstep ⟨h, hb⟩
    (Trace.obeys_of_forall fun e he _ => hno e he) hrun
  refine ⟨h', fun s hs => ?_⟩
  obtain ⟨r, hr, hiff⟩ := hcur s hs
  exact ⟨r, hr, hiff.trans (hfold es b)⟩

/-- A send on a closed channel fails with the error left there, or with no known
reason. -/
theorem startSend_of_closed {c : Context} {r : ChanRef} (hr : s.sendData = some r)
    (ho : (c.chans.cell r).chan.isOpen = false) (item : Bytes) (room : Bool) :
    (s.startSend c item room).1 = .error
      ((c.chans.cell r).errorState.getD (ErrorKind.sendError item)) := by
  have h := ErrorChan.startSend_of_closed (c := c.chans.cell r) item room ho
  simp only [Stream.startSend, Stream.getSendData, hr, h, ErrorChan.mapErr_of_closed item ho]
  cases (c.chans.cell r).errorState <;> rfl

/-- **When the application finds the error.** The context is told the error of the
connection, and is dropped later. Every send then fails with this error exactly if no
swap was outstanding when the error came, and none was made since. -/
theorem Sends.error_found_iff (h : p.Sends) (ha : p.alive = true) {err : Error} {es : List Event}
    (hno : ∀ e ∈ es, e.isConnectionError = false)
    (hrun : p.run (.connectionError err :: es) = some p') (hgone : p'.alive = false)
    (hs : p'.stream = some s) :
    (∀ item room, (s.startSend p'.ctx item room).1 = .error err) ↔
      p.ctx.NoSwap ∧ ∀ e ∈ es, e.isSwap = false := by
  obtain ⟨s₀, hs₀⟩ := run_stream hrun hs
  have hfirst : p.step (.connectionError err) =
      some { p with ctx := p.ctx.handleConnectionError err } := by
    simp [Pair.step, Event.atStream, ha, Pair.stepContext]
  rw [run, Trace.run_cons, hfirst, Option.bind_some] at hrun
  obtain ⟨sw, a, hsw, ha₀, hiff, ht⟩ := h.connectionError ha hs₀ err
  obtain ⟨ht', hcur⟩ := ht.run_cur (A := sw.activeStream) (b := decide (a = sw.activeStream))
    (by simp) (fun s₁ hs₁ => ⟨a, by
      obtain rfl : s₀ = s₁ := Option.some.inj (hs₀.symm.trans hs₁)
      exact ha₀, by simp⟩) hno hrun
  obtain ⟨r, hr, hfound⟩ := hcur s hs
  rw [decide_eq_true_eq, hiff] at hfound
  rw [← hfound]
  have hclosed := ht'.closed hgone (a := r) (by simp [cur, hs, hr])
  have hsend := startSend_of_closed (c := p'.ctx) hr hclosed
  constructor
  · -- two items cannot both be the item of the error
    intro hall
    by_contra hne
    have herr : (p'.ctx.chans.cell r).errorState = none := by rw [ht'.errors, if_neg hne]
    have h₁ := (hsend [] true).symm.trans (hall [] true)
    have h₂ := (hsend [0] true).symm.trans (hall [0] true)
    rw [herr] at h₁ h₂
    simp only [Option.getD_none] at h₁ h₂
    exact absurd (h₁.trans h₂.symm) (by simp)
  · rintro heq item room
    rw [hsend, ht'.errors, if_pos heq, Option.getD_some]

end Pair

end Streams

end PicoquicRs
