import Mathlib.Data.List.TakeDrop
import PicoquicRs.Streams.Linked

/-!
# Byte-exact sending

As long as the application does not swap its channel and neither side gives the
stream up, the bytes handed to picoquic, the active buffer and the bytes still
queued are together, in this order, the items that were accepted
(`PicoquicRs.Streams.Pair.ByteExact`). The result is stated on runs
(`PicoquicRs.Streams.sending_is_byte_exact`), and says of the next
`prepare_to_send` callback what it hands over and which flags it sets.
-/

namespace PicoquicRs

namespace Streams

open Futures Context

/-- **A plain event**: no swap of the channel, no reset of the stream, no
`stop_sending`, the context is not dropped from outside, and picoquic provides the
buffers it promises. -/
def Event.plain : Event → Prop
  | .setSendChannelSize | .reset | .dropContext | .callback (.data _ .stopSending) => False
  | e => ¬ e.isNull

namespace Pair

variable {p : Pair}

/-- **The law of byte-exact sending**, and what keeps it. -/
structure ByteExact (p : Pair) : Prop where
  linked : p.Linked
  /-- No message is under way, and no successor waits. -/
  control : p.ctx.controlMsg.queue = []
  slot : ∀ s, p.ctx.sendData = some s → s.swapTo = none
  /-- The source is closed by dropping the `Stream`. -/
  closed : p.ctx.source.ended = true ↔ p.stream = none
  /-- Nothing more is sent once all is sent. -/
  done : p.ctx.stopSendingOrFinSent = true → p.ctx.source.ended = true ∧ p.ctx.unsent = []
  bytes : p.ctx.sentBytes ++ p.ctx.unsent = p.accepted.flatten

namespace ByteExact

/-- What a function of the context has to keep. -/
theorem of_ctx (h : p.ByteExact) {c' : Context} (hl : { p with ctx := c' }.Linked)
    (hq : c'.controlMsg.queue = []) (hs : Moved p.ctx.sendData c'.sendData ∨ c'.sendData = none)
    (hend : c'.source.ended = p.ctx.source.ended)
    (hdone : c'.stopSendingOrFinSent = true → c'.source.ended = true ∧ c'.unsent = [])
    (hbytes : c'.sentBytes ++ c'.unsent = p.ctx.sentBytes ++ p.ctx.unsent) :
    { p with ctx := c' }.ByteExact where
  linked := hl
  control := hq
  slot s hs' := by
    rcases hs with (hs | ⟨s₀, r, -, -, hs⟩) | hs
    · exact h.slot s (hs ▸ hs')
    · obtain rfl := Option.some.inj (hs'.symm.trans hs)
      rfl
    · rw [hs] at hs'
      cases hs'
  closed := by rw [hend]; exact h.closed
  done := hdone
  bytes := hbytes.trans h.bytes

theorem of_idle (h : p.ByteExact) {c' : Context} (hl : { p with ctx := c' }.Linked)
    (hi : Idle p.ctx c') : { p with ctx := c' }.ByteExact := by
  refine h.of_ctx hl (hi.control.trans h.control) (Or.inl (Or.inl hi.sendData)) (by rw [hi.source])
    ?_ (by rw [hi.sentBytes, hi.unsent])
  rw [hi.stop, hi.source, hi.unsent]
  exact h.done

/-- **A `prepare_to_send` callback keeps the law.** -/
theorem handleSendData (h : p.ByteExact) {c' : Context} {n : ℕ}
    (hl : { p with ctx := c' }.Linked) (hs : SendSpec p.ctx n c') :
    { p with ctx := c' }.ByteExact := by
  obtain ⟨sd, ch, pl, ab, hframe, hpoll⟩ := hs.frame
  have hq : c'.controlMsg = p.ctx.controlMsg := by rw [hframe]
  have hsd : c'.sendData = sd := by rw [hframe]
  have hstop : c'.stopSendingOrFinSent =
      (p.ctx.source.ended && decide (p.ctx.unsent.length ≤ n)) := by rw [hframe]
  have hsent : c'.sentBytes = p.ctx.sentBytes ++ p.ctx.unsent.take n := by
    rw [hframe]
    simp [sentBytes, Call.bytes]
  refine h.of_ctx hl (hq ▸ h.control) (Or.inl (hsd ▸ hpoll.moved)) hs.ended ?_ ?_
  · rw [hstop, hs.ended, hs.unsent]
    simp
  · rw [hsent, hs.unsent, List.append_assoc, List.take_append_drop]

/-- **Polling for data keeps the law**: an item moves from the source to the active
buffer. -/
theorem pollSendData (h : p.ByteExact) : { p with ctx := p.ctx.pollSendData }.ByteExact := by
  have hl : { p with ctx := p.ctx.pollSendData }.Linked :=
    h.linked.of_kept (pollSendData_kept h.linked.ctx) rfl rfl
  rcases pollSendData_cases h.linked.ctx.slotDistinct with
    ⟨-, hc⟩ | ⟨s, s', chans, c₁, ha, hs, hc₁, hpoll, -, hsrc, hcase⟩
  · rw [hc]
    exact h
  have hq : c₁.controlMsg.queue = [] := by rw [hc₁]; exact h.control
  have hsd : Moved p.ctx.sendData c₁.sendData := by rw [hc₁]; exact hpoll.moved
  have hst : c₁.stopSendingOrFinSent = p.ctx.stopSendingOrFinSent := by rw [hc₁]
  have hsent : c₁.sentBytes = p.ctx.sentBytes := by rw [hc₁]; rfl
  have hact : c₁.activeBuffer = none := by rw [hc₁, ha]
  rcases hcase with ⟨buf, q, hi, hc⟩ | ⟨hi, he, hc⟩ | ⟨hi, he, hc⟩
  · -- the item is the active buffer now
    rw [Source.poll_of_cons hi] at hsrc
    have hsrc' : p.ctx.pollSendData.source = c₁.source := by
      rw [hc]
      exact source_congr rfl fun _ => rfl
    have hun : p.ctx.pollSendData.unsent = p.ctx.unsent := by
      rw [unsent, unsent, hsrc', hsrc, hi, activeBytes, activeBytes, ha, hc]
      simp
    have hend : p.ctx.pollSendData.source.ended = p.ctx.source.ended := by rw [hsrc', hsrc]
    have hst' : p.ctx.pollSendData.stopSendingOrFinSent = p.ctx.stopSendingOrFinSent := by
      rw [hc]
      exact hst
    have hsent' : p.ctx.pollSendData.sentBytes = p.ctx.sentBytes := by
      rw [hc]
      simp [sentBytes, Call.bytes]
    refine h.of_ctx hl ?_ (Or.inl ?_) hend ?_ (by rw [hun, hsent'])
    · rw [hc]
      exact hq
    · rw [hc]
      exact hsd
    · rw [hst', hend, hun]
      exact h.done
  · -- the source has ended: nothing is unsent
    obtain ⟨chans, -, hd⟩ := handleSendDataDropped_spec c₁
    rw [← hc] at hd
    have hnil : p.ctx.unsent = [] := by rw [unsent, activeBytes, ha, hi]; rfl
    have hafter : p.ctx.pollSendData.controlMsg = c₁.controlMsg ∧
        p.ctx.pollSendData.sendData = none ∧ p.ctx.pollSendData.activeBuffer = none ∧
        p.ctx.pollSendData.sentBytes = c₁.sentBytes := by
      rw [hd]
      split
      · exact ⟨rfl, rfl, hact, by simp [sentBytes, Call.bytes]⟩
      · split
        · exact ⟨rfl, rfl, hact, by simp [sentBytes, Call.bytes]⟩
        · exact ⟨rfl, rfl, hact, rfl⟩
    obtain ⟨hq', hs', ha', hsent'⟩ := hafter
    have hsrc' := source_of_none hs'
    have hnil' : p.ctx.pollSendData.unsent = [] := by rw [unsent, activeBytes, ha', hsrc']; rfl
    refine h.of_ctx hl (hq' ▸ hq) (Or.inr hs') (by rw [hsrc', he]) (fun _ => ⟨?_, hnil'⟩) ?_
    · rw [hsrc']
    · rw [hsent', hsent, hnil, hnil']
  · -- nothing is there yet
    rw [Source.poll_of_nil hi] at hsrc
    have hun : c₁.unsent = p.ctx.unsent := by
      rw [unsent, unsent, activeBytes, activeBytes, hsrc, hact, ha]
    rw [hc] at hl ⊢
    refine h.of_ctx hl hq (Or.inl hsd) (by rw [hsrc]) ?_ (by rw [hsent, hun])
    rw [hst, hsrc, hun]
    exact h.done

/-- **Polling the context keeps the law**, and so does dropping it once it is
finished. -/
theorem poll (h : p.ByteExact) (ha : p.alive = true) :
    ∃ p', p.stepContext .poll = some p' ∧ p'.ByteExact := by
  obtain ⟨r, c₁, hc₁, hi⟩ := pollControlMsg_idle h.control
  obtain ⟨r', c₁', hc₁', hk⟩ := pollControlMsg_kept h.linked.ctx
  obtain ⟨rfl, rfl⟩ : r = r' ∧ c₁ = c₁' := by simpa using hc₁.symm.trans hc₁'
  have h₁ : { p with ctx := c₁ }.ByteExact := h.of_idle (h.linked.of_kept hk rfl rfl) hi
  have h₂ : { p with ctx := c₁.pollSendData }.ByteExact := h₁.pollSendData
  refine ⟨_, stepContext_poll hc₁, ?_⟩
  by_cases hfin : c₁.pollSendData.stopSendingOrFinSent = true ∧
      c₁.pollSendData.finReceivedOrRecvMsgDropped = true
  · rw [if_pos hfin]
    obtain ⟨chans, hd⟩ := drop_spec c₁.pollSendData
    -- what is dropped with the context holds nothing that is unsent
    obtain ⟨hend, hnil⟩ := h₂.done hfin.1
    have hsrc : c₁.pollSendData.drop.source = { items := [], ended := true } :=
      source_of_none (by rw [hd])
    have hnil' : c₁.pollSendData.drop.unsent = [] := by
      have hact : c₁.pollSendData.drop.activeBytes = c₁.pollSendData.activeBytes := by rw [hd]; rfl
      rw [unsent, hsrc, hact, (List.append_eq_nil_iff.mp hnil).1]
      rfl
    have hsent : c₁.pollSendData.drop.sentBytes = c₁.pollSendData.sentBytes := by rw [hd]; rfl
    exact {
      linked := h₂.linked.drop ha
      control := by simp only [hd, Chan.dropReceiver]
      slot := by simp [hd]
      closed := by
        rw [hsrc]
        exact ⟨fun _ => h₂.closed.mp hend, fun _ => rfl⟩
      done := fun _ => ⟨by rw [hsrc], hnil'⟩
      bytes := by
        simp only [hsent, hnil']
        rw [← h₂.bytes, hnil] }
  · rw [if_neg hfin]
    exact h₂

/-- **A step of the event loop keeps the law.** -/
theorem stepContext (h : p.ByteExact) (ha : p.alive = true) {e : Event} (he : e.atStream = false)
    (hpl : e.plain) : ∃ p', p.stepContext e = some p' ∧ p'.ByteExact := by
  cases e with
  | callback cb =>
    cases cb with
    | prepareToSend dest n =>
      cases dest with
      | none => exact absurd trivial hpl
      | some dest =>
        obtain ⟨c', hc', hspec⟩ := handleSendData_spec dest n h.linked.ctx.slotDistinct
        obtain ⟨c'', hc'', hk⟩ := handleSendData_kept h.linked.ctx dest n
        obtain rfl := Option.some.inj (hc'.symm.trans hc'')
        exact ⟨_, stepContext_callback hc', h.handleSendData (h.linked.of_kept hk rfl rfl) hspec⟩
    | data bytes event =>
      obtain ⟨c₁, heff, -, hc⟩ := handleCallback_data (c := p.ctx) bytes event
      have hne : event ≠ .stopSending := by
        rintro rfl
        exact hpl
      obtain ⟨c', hc', hk⟩ := @handleCallback_kept _ _ h.linked.ctx (.data bytes event) id
      rw [if_neg hne] at hc
      obtain rfl := Option.some.inj (hc.symm.trans hc')
      exact ⟨_, stepContext_callback hc, h.of_idle (h.linked.of_kept hk rfl rfl) heff.idle⟩
  | pollControlMsg =>
    obtain ⟨r, c₁, hc₁, hi⟩ := pollControlMsg_idle h.control
    obtain ⟨r', c₁', hc₁', hk⟩ := pollControlMsg_kept h.linked.ctx
    obtain ⟨rfl, rfl⟩ : r = r' ∧ c₁ = c₁' := by simpa using hc₁.symm.trans hc₁'
    exact ⟨_, stepContext_pollControlMsg hc₁, h.of_idle (h.linked.of_kept hk rfl rfl) hi⟩
  | pollSendData => exact ⟨_, rfl, h.pollSendData⟩
  | poll => exact h.poll ha
  | connectionError err =>
    exact ⟨_, rfl, h.of_idle
      (h.linked.of_kept (handleConnectionError_kept h.linked.ctx err) rfl rfl)
      (handleConnectionError_idle p.ctx err)⟩
  | connectionClose =>
    exact ⟨_, rfl, h.of_idle (h.linked.of_kept (handleConnectionClose_kept h.linked.ctx) rfl rfl)
      (recvMessage_effect p.ctx .close).idle⟩
  | dropContext => exact absurd hpl id
  | _ => simp [Event.atStream] at he

/-- The channel of the application is the one the context polls. -/
theorem active (h : p.ByteExact) {s : Stream} (hs : p.stream = some s) :
    ∃ sw, p.ctx.sendData = some sw ∧ sw.swapTo = none ∧ s.sendData = some sw.activeStream := by
  cases hsd : p.ctx.sendData with
  | none =>
    have hnone := h.closed.mp (by rw [source_of_none hsd])
    simp [hs] at hnone
  | some sw =>
    obtain ⟨a, ha⟩ := Option.ne_none_iff_exists'.mp (h.linked.paired s hs (by simp [hsd]))
    have hslot := h.slot sw hsd
    have hc := h.linked.ctx.chain sw hsd
    rw [h.control, hslot, show p.cur = some a by simp [cur, hs, ha]] at hc
    exact ⟨sw, rfl, hslot, by rw [ha, hc.2.1]; rfl⟩

/-- **An accepted item keeps the law**: it is queued last. -/
theorem startSend (h : p.ByteExact) {s : Stream} {r : ChanRef} {item : Bytes}
    (hs : p.stream = some s) (hr : s.sendData = some r)
    (hl : { p with ctx := p.ctx.pushData r item, accepted := p.accepted ++ [item] }.Linked) :
    { p with ctx := p.ctx.pushData r item, accepted := p.accepted ++ [item] }.ByteExact := by
  obtain ⟨sw, hsd, hslot, hsw⟩ := h.active hs
  obtain rfl : r = sw.activeStream := Option.some.inj (hr.symm.trans hsw)
  have hsrc : (p.ctx.pushData sw.activeStream item).source =
      { items := p.ctx.source.items ++ [item], ended := p.ctx.source.ended } := by
    rw [source_of_some (c := p.ctx.pushData _ item) hsd, source_of_some hsd]
    simp [SwappableStream.source, hslot, chanSource, pushData, Chan.source, Chan.isEnded]
  have hopen : p.ctx.source.ended = true → False := fun he => by
    have := h.closed.mp he
    simp [hs] at this
  have hun : (p.ctx.pushData sw.activeStream item).unsent = p.ctx.unsent ++ item := by
    rw [unsent, unsent, hsrc, List.flatten_append, List.flatten_singleton, ← List.append_assoc]
    rfl
  exact {
    linked := hl
    control := h.control
    slot := h.slot
    closed := by
      rw [hsrc]
      exact h.closed
    done := fun hd => absurd (h.done hd).1 hopen
    bytes := by
      rw [hun, List.flatten_append, List.flatten_singleton, ← h.bytes, ← List.append_assoc]
      rfl }

/-- **Dropping the `Stream` closes the source.** -/
theorem dropStream (h : p.ByteExact) {s : Stream} (hs : p.stream = some s)
    (hl : { p with stream := none, ctx := s.drop p.ctx }.Linked) :
    { p with stream := none, ctx := s.drop p.ctx }.ByteExact := by
  obtain ⟨sw, hsd, hslot, hsw⟩ := h.active hs
  have hc := h.linked.ctx.chain sw hsd
  rw [h.control, hslot, show p.cur = some sw.activeStream by simp [cur, hs, hsw]] at hc
  have hsrc : (s.drop p.ctx).source = { items := p.ctx.source.items, ended := true } := by
    rw [source_of_some (c := s.drop p.ctx) hsd, source_of_some hsd]
    have hone : (p.ctx.chans.cell sw.activeStream).chan.senders = 1 := hc.2.2.1
    simp [SwappableStream.source, hslot, chanSource, Stream.drop, hsw, ErrorChan.dropSender,
      Chan.dropSender, Chan.source, Chan.isEnded, hone]
  have hun : (s.drop p.ctx).unsent = p.ctx.unsent := by
    rw [unsent, unsent, hsrc]
    rfl
  exact {
    linked := hl
    control := h.control
    slot := h.slot
    closed := by
      rw [hsrc]
      exact ⟨fun _ => rfl, fun _ => rfl⟩
    done := fun hd => ⟨by rw [hsrc], hun.trans (h.done hd).2⟩
    bytes := by
      rw [hun]
      exact h.bytes }

/-- **A step of the application keeps the law.** -/
theorem stepStream (h : p.ByteExact) {s : Stream} (hs : p.stream = some s) {e : Event}
    (he : e.atStream = true) (hpl : e.plain) :
    ∃ p', p.stepStream s e = some p' ∧ p'.ByteExact := by
  obtain ⟨p', hp', hl⟩ := stepStream_linked h.linked hs he
  refine ⟨p', hp', ?_⟩
  cases e with
  | startSend item room =>
    rcases stepStream_startSend (p := p) (s := s) item room with ⟨r, hr, -, h'⟩ | h'
    · obtain rfl := Option.some.inj (h'.symm.trans hp')
      exact h.startSend hs hr hl
    · obtain rfl := Option.some.inj (h'.symm.trans hp')
      exact h
  | pollStream =>
    obtain ⟨o, s', hpoll, hsd, -⟩ := Stream.poll_frame s p.ctx h.linked.ctx.recv
    obtain rfl := Option.some.inj ((stepStream_pollStream hpoll).symm.trans hp')
    exact {
      linked := hl
      control := h.control
      slot := h.slot
      closed := h.closed.trans (by simp [hs])
      done := h.done
      bytes := h.bytes }
  | dropStream =>
    obtain rfl := Option.some.inj hp'
    exact h.dropStream hs hl
  | setSendChannelSize => exact absurd hpl id
  | reset => exact absurd hpl id
  | _ => simp [Event.atStream] at he

/-- **Every plain step keeps the law**, and does not panic. -/
theorem step (h : p.ByteExact) {e : Event} (hpl : e.plain) :
    ∃ p', p.step e = some p' ∧ p'.ByteExact := by
  rw [Pair.step]
  cases he : e.atStream with
  | true =>
    rw [if_pos rfl]
    cases hs : p.stream with
    | none => exact ⟨p, rfl, h⟩
    | some s => exact h.stepStream hs he hpl
  | false =>
    rw [if_neg Bool.false_ne_true]
    split
    · exact h.stepContext ‹_› he hpl
    · exact ⟨p, rfl, h⟩

end ByteExact

theorem new_byteExact {id : Id} {isClientCon : Bool} (h : HasSendHalf id isClientCon) :
    (Streams.new id isClientCon).ByteExact := by
  have hd : ¬ (isUnidirectional id && !isUnidirectionalSendAllowed id isClientCon) = true := by
    rcases h with h | h <;> simp [h]
  have hl := new_linked id isClientCon
  simp only [Streams.new, createSendAndRecvData, if_neg hd] at hl ⊢
  exact {
    linked := hl
    control := rfl
    slot := by
      intro s hs
      obtain rfl := Option.some.inj hs
      rfl
    closed := ⟨fun he => absurd (he : false = true) Bool.false_ne_true,
      fun he => absurd he (by simp)⟩
    done := by
      intro hst
      exact absurd hst hd
    bytes := rfl }

/-- **The law holds after every plain run**, and none panics. -/
theorem run_byteExact {id : Id} {isClientCon : Bool} (h : HasSendHalf id isClientCon)
    {es : List Event} (hes : ∀ e ∈ es, e.plain) :
    ∃ p, (Streams.new id isClientCon).run es = some p ∧ p.ByteExact :=
  Trace.run_invariant (fun _ _ hp he => hp.step he) (new_byteExact h)
    (Trace.obeys_of_forall fun e he _ => hes e he : Trace.Obeys step (fun _ e => e.plain) _ es)

end Pair

/-- **Sending is byte-exact.** After every plain run of a stream with a send half:

* the bytes handed to picoquic, the active buffer and the bytes still queued are the
  accepted items, in order;
* the next `prepare_to_send` callback, for at most `maxLength` bytes, does not panic
  and fills a buffer of exactly as many bytes as are available, up to `maxLength`,
  with the first bytes that are unsent;
* it sets `fin` exactly when the `Stream` was dropped and no accepted byte is left
  unsent, and says that the stream is still active exactly when bytes are left in
  the active buffer. -/
theorem sending_is_byte_exact {id : Id} {isClientCon : Bool} (h : HasSendHalf id isClientCon)
    {es : List Event} (hes : ∀ e ∈ es, e.plain) :
    ∃ p, (Streams.new id isClientCon).run es = some p ∧
      p.ctx.sentBytes ++ p.ctx.activeBytes ++ p.ctx.source.items.flatten = p.accepted.flatten ∧
      ∀ (dest : DataBuffer) (maxLength : ℕ), ∃ c' length fin stillActive data,
        p.ctx.handleCallback (.prepareToSend (some dest) maxLength) = some c' ∧
        c'.calls = p.ctx.calls ++ [.provideStreamDataBuffer length fin stillActive data] ∧
        data = (p.ctx.activeBytes ++ p.ctx.source.items.flatten).take maxLength ∧
        length = data.length ∧
        length = min maxLength (p.ctx.activeBytes ++ p.ctx.source.items.flatten).length ∧
        (fin = true ↔ p.stream = none ∧ c'.sentBytes = p.accepted.flatten) ∧
        (stillActive = true ↔ c'.activeBytes ≠ []) := by
  obtain ⟨p, hp, hb⟩ := Pair.run_byteExact h hes
  refine ⟨p, hp, by rw [List.append_assoc]; exact hb.bytes, fun dest maxLength => ?_⟩
  obtain ⟨c', hc', hspec⟩ := handleSendData_spec dest maxLength hb.linked.ctx.slotDistinct
  obtain ⟨sd, ch, pl, ab, hframe, -⟩ := hspec.frame
  have hsent : c'.sentBytes = p.ctx.sentBytes ++ p.ctx.unsent.take maxLength := by
    rw [hframe]
    simp [sentBytes, Call.bytes]
  have hcalls : c'.calls = p.ctx.calls ++ [.provideStreamDataBuffer
      (min maxLength p.ctx.unsent.length)
      (p.ctx.source.ended && decide (p.ctx.unsent.length ≤ maxLength))
      (decide (maxLength < p.ctx.unsent.length)) (p.ctx.unsent.take maxLength)] := by rw [hframe]
  refine ⟨c', _, _, _, _, hc', hcalls, rfl, ?_, rfl, ?_, ?_⟩
  · rw [List.length_take]
  · -- nothing is left unsent exactly when all of it fits
    rw [Bool.and_eq_true, decide_eq_true_eq, hb.closed, hsent, ← hb.bytes,
      List.append_cancel_left_eq, List.take_eq_self_iff]
  · rw [decide_eq_true_eq]
    have hactive := hspec.active
    split at hactive
    · simp [activeBytes, hactive.1, Nat.not_lt.mpr ‹_›]
    · obtain ⟨buf, hbuf, hne⟩ := hactive
      simp [activeBytes, hbuf, hne, Nat.lt_of_not_le ‹_›]

/-- A run with items of every size, an empty one among them, that fit and exceed what
picoquic asks for. -/
theorem sending_is_byte_exact_of_mixed_sizes :
    HasSendHalf 4 true ∧ ∃ p, (Streams.new 4 true).run
      [.startSend [1, 2, 3] true, .poll, .startSend [] true, .startSend [4] true,
        .callback (.prepareToSend (some zeroed) 2), .dropStream] = some p ∧
      p.ctx.sentBytes ++ p.ctx.activeBytes ++ p.ctx.source.items.flatten = p.accepted.flatten := by
  obtain ⟨p, hp, hbytes, -⟩ := @sending_is_byte_exact 4 true (by decide)
    [.startSend [1, 2, 3] true, .poll, .startSend [] true, .startSend [4] true,
      .callback (.prepareToSend (some zeroed) 2), .dropStream]
    (by simp [Event.plain, Event.isNull, Callback.isNull])
  exact ⟨by decide, p, hp, hbytes⟩

end Streams

end PicoquicRs
