import PicoquicRs.Streams.Sending

/-!
# What each function of a stream context may change

One lemma for each function of `PicoquicRs.Streams.Context`, saying which fields it
may change and which calls into picoquic it may make. The receiving side
(`PicoquicRs.Streams.Context.RecvEffect`) and the sending side share no field but
the record of calls, so that an invariant of one side needs nothing about the
functions of the other than these lemmas.
-/

namespace PicoquicRs

namespace Streams

open Futures

/-! ### Reading the record of calls -/

namespace Call

/-- The application bytes a call hands over. -/
def bytes : Call → Bytes
  | provideStreamDataBuffer _ _ _ data => data
  | _ => []

/-- The call hands over a `FIN`. -/
def isFin : Call → Bool
  | provideStreamDataBuffer _ fin _ _ => fin
  | _ => false

/-- The call resets the stream. -/
def isReset : Call → Bool
  | resetStream _ => true
  | _ => false

/-- The call asks the peer to stop sending. -/
def isStopSending : Call → Bool
  | stopSending _ => true
  | _ => false

/-- What the call says about the stream being active, if anything. -/
def activity : Call → Option Bool
  | markActiveStream _ => some true
  | provideStreamDataBuffer _ _ stillActive _ => some stillActive
  | _ => none

end Call

namespace Context

variable (c : Context)

/-- The application bytes handed to picoquic so far. -/
def sentBytes : Bytes := c.calls.flatMap Call.bytes

/-- How often a `FIN` was handed over. -/
def fins : ℕ := c.calls.countP Call.isFin

/-- How often the stream was reset. -/
def resets : ℕ := c.calls.countP Call.isReset

/-- How often the peer was asked to stop sending. -/
def stopSendings : ℕ := c.calls.countP Call.isStopSending

/-- **The stream is active in picoquic**: the last value given by `mark_active` or
by the argument `still_active` is `1`. -/
def activeInPicoquic : Bool := (c.calls.filterMap Call.activity).getLastD false

section

variable {c} {c' : Context} {x : Call}

/-! What one more call adds to the record. -/

theorem sentBytes_of_calls (h : c'.calls = c.calls ++ [x]) :
    c'.sentBytes = c.sentBytes ++ x.bytes := by
  simp [sentBytes, h]

theorem fins_of_calls (h : c'.calls = c.calls ++ [x]) :
    c'.fins = c.fins + x.isFin.toNat := by
  rw [fins, h, List.countP_append, List.countP_singleton]
  cases x.isFin <;> rfl

theorem resets_of_calls (h : c'.calls = c.calls ++ [x]) :
    c'.resets = c.resets + x.isReset.toNat := by
  rw [resets, h, List.countP_append, List.countP_singleton]
  cases x.isReset <;> rfl

theorem activeInPicoquic_of_calls (h : c'.calls = c.calls ++ [x]) :
    c'.activeInPicoquic = x.activity.getD c.activeInPicoquic := by
  rw [activeInPicoquic, h, List.filterMap_append]
  cases hx : x.activity with
  | none => simp [hx, activeInPicoquic]
  | some b => simp [hx]

end

/-! ### The receiving side -/

/-- **An effect that leaves the sending side alone**: nothing is pulled, nothing is
queued or dropped, and the only calls are of `picoquic_stop_sending`. -/
structure Idle (c c' : Context) : Prop where
  sendData : c'.sendData = c.sendData
  next : c'.chans.next = c.chans.next
  chan : ∀ q, (c'.chans.cell q).chan = (c.chans.cell q).chan
  control : c'.controlMsg.queue = c.controlMsg.queue
  dataSend : c'.dataSend = c.dataSend
  stop : c'.stopSendingOrFinSent = c.stopSendingOrFinSent
  activeBuffer : c'.activeBuffer = c.activeBuffer
  pulls : c'.pulls = c.pulls
  calls : ∃ extra, c'.calls = c.calls ++ extra ∧ ∀ x ∈ extra, ∃ id, x = Call.stopSending id

/-- The source is made of channels alone. -/
theorem source_congr {c c' : Context} (hs : c'.sendData = c.sendData)
    (hch : ∀ q, (c'.chans.cell q).chan = (c.chans.cell q).chan) : c'.source = c.source := by
  have hsrc : ∀ q, chanSource q c'.chans = chanSource q c.chans := fun q => by
    rw [chanSource, hch, chanSource]
  simp only [source, hs, SwappableStream.source, hsrc]

namespace Idle

variable {c c' c'' : Context}

theorem refl (c : Context) : Idle c c :=
  ⟨rfl, rfl, fun _ => rfl, rfl, rfl, rfl, rfl, rfl, [], by simp, by simp⟩

theorem trans (h : Idle c c') (h' : Idle c' c'') : Idle c c'' := by
  obtain ⟨extra, hx, hall⟩ := h.calls
  obtain ⟨extra', hx', hall'⟩ := h'.calls
  refine ⟨h'.sendData.trans h.sendData, h'.next.trans h.next,
    fun q => (h'.chan q).trans (h.chan q), h'.control.trans h.control,
    h'.dataSend.trans h.dataSend, h'.stop.trans h.stop, h'.activeBuffer.trans h.activeBuffer,
    h'.pulls.trans h.pulls, extra ++ extra', by rw [hx', hx, List.append_assoc], ?_⟩
  intro x hmem
  exact (List.mem_append.mp hmem).elim (hall x) (hall' x)

theorem source (h : Idle c c') : c'.source = c.source := source_congr h.sendData h.chan

theorem unsent (h : Idle c c') : c'.unsent = c.unsent := by
  rw [Context.unsent, activeBytes, h.activeBuffer, h.source, Context.unsent, activeBytes]

theorem pulledItems (h : Idle c c') : c'.pulledItems = c.pulledItems := by
  rw [Context.pulledItems, h.pulls, Context.pulledItems]

/-- What a function of the calls ignores on `stop_sending`, it ignores here. -/
theorem filterMap_calls {α : Type} (h : Idle c c') (f : Call → Option α)
    (hf : ∀ id, f (.stopSending id) = none) :
    c'.calls.filterMap f = c.calls.filterMap f := by
  obtain ⟨extra, hc, hx⟩ := h.calls
  have : extra.filterMap f = [] := List.filterMap_eq_nil_iff.mpr fun x hmem => by
    obtain ⟨id, rfl⟩ := hx x hmem
    exact hf id
  rw [hc, List.filterMap_append, this, List.append_nil]

theorem countP_calls (h : Idle c c') (f : Call → Bool)
    (hf : ∀ id, f (.stopSending id) = false) : c'.calls.countP f = c.calls.countP f := by
  obtain ⟨extra, hc, hx⟩ := h.calls
  have : extra.countP f = 0 := List.countP_eq_zero.mpr fun x hmem => by
    obtain ⟨id, rfl⟩ := hx x hmem
    simp [hf id]
  rw [hc, List.countP_append, this, Nat.add_zero]

theorem sentBytes (h : Idle c c') : c'.sentBytes = c.sentBytes := by
  obtain ⟨extra, hc, hx⟩ := h.calls
  have : extra.flatMap Call.bytes = [] := List.flatMap_eq_nil_iff.mpr fun x hmem => by
    obtain ⟨id, rfl⟩ := hx x hmem
    rfl
  rw [Context.sentBytes, hc, List.flatMap_append, this, List.append_nil, Context.sentBytes]

theorem fins (h : Idle c c') : c'.fins = c.fins := h.countP_calls _ fun _ => rfl

theorem resets (h : Idle c c') : c'.resets = c.resets := h.countP_calls _ fun _ => rfl

theorem activeInPicoquic (h : Idle c c') : c'.activeInPicoquic = c.activeInPicoquic := by
  rw [Context.activeInPicoquic, h.filterMap_calls _ fun _ => rfl, Context.activeInPicoquic]

end Idle

/-- **An effect on the receiving side**: the messages to the `Stream`, the flag of
that side, and calls of `picoquic_stop_sending`. -/
structure RecvEffect (c c' : Context) : Prop where
  frame : ∃ recvMsg fin extra, c' = { c with
      recvMsg, finReceivedOrRecvMsgDropped := fin, calls := c.calls ++ extra } ∧
    ∀ x ∈ extra, ∃ id, x = Call.stopSending id
  /-- A receiving side that is finished stays finished. -/
  fin : c.finReceivedOrRecvMsgDropped = true → c'.finReceivedOrRecvMsgDropped = true
  /-- The ends of the channel of messages stay as they are. -/
  isOpen : c'.recvMsg.isOpen = c.recvMsg.isOpen
  senders : c'.recvMsg.senders = c.recvMsg.senders

namespace RecvEffect

variable {c c' c'' : Context}

theorem refl (c : Context) : RecvEffect c c :=
  ⟨⟨c.recvMsg, c.finReceivedOrRecvMsgDropped, [], by simp, by simp⟩, fun h => h, rfl, rfl⟩

theorem trans (h : RecvEffect c c') (h' : RecvEffect c' c'') : RecvEffect c c'' := by
  obtain ⟨⟨recvMsg, fin, extra, rfl, hx⟩, hf, ho, hs⟩ := h
  obtain ⟨⟨recvMsg', fin', extra', rfl, hx'⟩, hf', ho', hs'⟩ := h'
  refine ⟨⟨recvMsg', fin', extra ++ extra', by simp, ?_⟩, hf' ∘ hf, ho'.trans ho, hs'.trans hs⟩
  intro x hmem
  exact (List.mem_append.mp hmem).elim (hx x) (hx' x)

/-- The sending side is left alone. -/
theorem idle (h : RecvEffect c c') : Idle c c' := by
  obtain ⟨⟨_, _, extra, rfl, hx⟩, -, -, -⟩ := h
  exact ⟨rfl, rfl, fun _ => rfl, rfl, rfl, rfl, rfl, rfl, extra, rfl, hx⟩

/-- All else that is left alone. -/
theorem frame_eq (h : RecvEffect c c') : c'.sendData = c.sendData ∧ c'.chans = c.chans ∧
    c'.controlMsg = c.controlMsg ∧ c'.id = c.id ∧ c'.isClientCon = c.isClientCon := by
  obtain ⟨⟨_, _, _, rfl, -⟩, -, -, -⟩ := h
  exact ⟨rfl, rfl, rfl, rfl, rfl⟩

end RecvEffect

variable {c}

theorem recvMessageDropped_of_true (h : c.finReceivedOrRecvMsgDropped = true) :
    c.recvMessageDropped = c := by
  simp [recvMessageDropped, h]

/-- A receiver that is gone is noticed once; the peer is then told, unless the
stream has no half to receive on. -/
theorem recvMessageDropped_of_false (h : c.finReceivedOrRecvMsgDropped = false) :
    c.recvMessageDropped = { c with
      finReceivedOrRecvMsgDropped := true
      calls := c.calls ++ if HasRecvHalf c.id c.isClientCon then [.stopSending c.id] else [] } := by
  have hiff : (!isUnidirectional c.id || !isUnidirectionalSendAllowed c.id c.isClientCon) = true ↔
      HasRecvHalf c.id c.isClientCon := by simp [HasRecvHalf]
  rw [recvMessageDropped, if_pos (by simp [h])]
  by_cases hr : HasRecvHalf c.id c.isClientCon
  · rw [if_pos (hiff.mpr hr), if_pos hr]
  · rw [if_neg (hiff.not.mpr hr), if_neg hr, List.append_nil]

theorem recvMessageDropped_effect (c : Context) : RecvEffect c c.recvMessageDropped := by
  cases h : c.finReceivedOrRecvMsgDropped with
  | true =>
    rw [recvMessageDropped_of_true h]
    exact .refl c
  | false =>
    rw [recvMessageDropped_of_false h]
    refine ⟨⟨c.recvMsg, true, _, rfl, fun x hx => ?_⟩, fun _ => rfl, rfl, rfl⟩
    split at hx
    · exact ⟨_, List.mem_singleton.mp hx⟩
    · simp at hx

theorem recvMessage_of_open (msg : Message) (h : c.recvMsg.isOpen = true) :
    c.recvMessage msg = { c with recvMsg := c.recvMsg.push msg } := by
  simp [recvMessage, Chan.unboundedSend_of_open h]

theorem recvMessage_of_closed (msg : Message) (h : c.recvMsg.isOpen = false) :
    c.recvMessage msg = c.recvMessageDropped := by
  simp [recvMessage, Chan.unboundedSend_of_closed h]

theorem recvMessage_effect (c : Context) (msg : Message) : RecvEffect c (c.recvMessage msg) := by
  cases h : c.recvMsg.isOpen with
  | true =>
    rw [recvMessage_of_open msg h]
    exact ⟨⟨c.recvMsg.push msg, c.finReceivedOrRecvMsgDropped, [], by simp, by simp⟩, fun h => h,
      rfl, rfl⟩
  | false =>
    rw [recvMessage_of_closed msg h]
    exact recvMessageDropped_effect c

/-- Noting the end of the receiving side. -/
theorem setFin_effect (c : Context) :
    RecvEffect c { c with finReceivedOrRecvMsgDropped := true } :=
  ⟨⟨c.recvMsg, true, [], by simp, by simp⟩, fun _ => rfl, rfl, rfl⟩

/-- The messages sent to the `Stream` by one function of the receiving side. -/
theorem recvMessage_queue (msg : Message) {m : Message}
    (hm : m ∈ (c.recvMessage msg).recvMsg.queue) :
    m ∈ c.recvMsg.queue ∨ m = msg := by
  cases h : c.recvMsg.isOpen with
  | true =>
    rw [recvMessage_of_open msg h] at hm
    simpa using hm
  | false =>
    rw [recvMessage_of_closed msg h] at hm
    refine Or.inl ?_
    cases hf : c.finReceivedOrRecvMsgDropped with
    | true => rwa [recvMessageDropped_of_true hf] at hm
    | false => rwa [recvMessageDropped_of_false hf] at hm

/-- **A connection error** is sent to the `Stream`, and left at the active receiver of
the data to send. No other receiver gets to know it. -/
theorem handleConnectionError_spec (c : Context) (err : Error) :
    ∃ c₁ chans, c₁ = c.recvMessage (.error err) ∧
      c.handleConnectionError err = { c₁ with chans } ∧
      chans.next = c.chans.next ∧ (∀ q, (chans.cell q).chan = (c.chans.cell q).chan) ∧
      ∀ q, (chans.cell q).errorState =
        if c.sendData.map SwappableStream.activeStream = some q then some err
        else (c.chans.cell q).errorState := by
  obtain ⟨c₁, hc₁⟩ : ∃ c₁, c₁ = c.recvMessage (.error err) := ⟨_, rfl⟩
  obtain ⟨hs, hch, -⟩ := (hc₁ ▸ recvMessage_effect c (.error err) : RecvEffect c c₁).frame_eq
  rw [← hs, ← hch]
  cases hsome : c₁.sendData with
  | none =>
    refine ⟨c₁, c₁.chans, hc₁, ?_, rfl, fun _ => rfl, fun _ => rfl⟩
    simp only [handleConnectionError, ← hc₁, hsome]
    rw [← hsome]
  | some s =>
    refine ⟨c₁, c₁.chans.modify s.activeStream fun ch => ch.propagateError err, hc₁, ?_, rfl,
      c₁.chans.modify_cell_congr (fun ch => ch.propagateError err) (fun ch => ch.chan) rfl, ?_⟩
    · simp only [handleConnectionError, ← hc₁, hsome]
    · intro q
      rcases eq_or_ne s.activeStream q with rfl | hq
      · rw [Store.modify_cell_self, Option.map_some, if_pos rfl]
        rfl
      · rw [Store.modify_cell_of_ne _ _ hq.symm, Option.map_some,
          if_neg fun h => hq (Option.some.inj h)]

theorem handleConnectionError_idle (c : Context) (err : Error) :
    Idle c (c.handleConnectionError err) := by
  obtain ⟨c₁, chans, hc₁, hc, hnext, hchan, -⟩ := handleConnectionError_spec c err
  have he : Idle c c₁ := hc₁ ▸ (recvMessage_effect c (.error err)).idle
  rw [hc]
  exact ⟨he.sendData, hnext, hchan, he.control, he.dataSend, he.stop, he.activeBuffer, he.pulls,
    he.calls⟩

/-- **What a callback other than `prepare_to_send` does to the receiving side.** On
`stop_sending` the sending side is closed, and it is left alone otherwise. -/
theorem handleCallback_data (bytes : Bytes) (event : StreamEvent) :
    ∃ c₁, RecvEffect c c₁ ∧
      (∀ m ∈ c₁.recvMsg.queue,
        m ∈ c.recvMsg.queue ∨ m = .recvData bytes ∨ m = .reset ∨ m = .close) ∧
      c.handleCallback (.data bytes event) =
        some (if event = .stopSending then { c₁ with stopSendingOrFinSent := true }.closeSendData
          else c₁) := by
  obtain ⟨c₁, hc₁⟩ : ∃ c₁, c₁ = if !bytes.isEmpty && !c.finReceivedOrRecvMsgDropped then
      c.recvMessage (.recvData bytes) else c := ⟨_, rfl⟩
  have he : RecvEffect c c₁ := by
    rw [hc₁]
    split
    · exact recvMessage_effect c _
    · exact .refl c
  have hq : ∀ m ∈ c₁.recvMsg.queue, m ∈ c.recvMsg.queue ∨ m = .recvData bytes := by
    intro m hm
    rw [hc₁] at hm
    split at hm
    · exact recvMessage_queue _ hm
    · exact Or.inl hm
  have hq' : ∀ m ∈ c₁.recvMsg.queue,
      m ∈ c.recvMsg.queue ∨ m = .recvData bytes ∨ m = .reset ∨ m = .close :=
    fun m hm => (hq m hm).imp_right Or.inl
  -- the end of the receiving side is noted, and sent on
  have hend : ∀ msg, (msg = .reset ∨ msg = .close) →
      RecvEffect c ({ c₁ with finReceivedOrRecvMsgDropped := true }.recvMessage msg) ∧
      ∀ m ∈ ({ c₁ with finReceivedOrRecvMsgDropped := true }.recvMessage msg).recvMsg.queue,
        m ∈ c.recvMsg.queue ∨ m = .recvData bytes ∨ m = .reset ∨ m = .close := by
    intro msg hmsg
    refine ⟨he.trans ((setFin_effect c₁).trans (recvMessage_effect _ _)), fun m hm => ?_⟩
    rcases recvMessage_queue _ hm with hm | rfl
    · exact hq' m hm
    · exact Or.inr (Or.inr hmsg)
  cases event with
  | streamReset =>
    exact ⟨_, (hend .reset (Or.inl rfl)).1, (hend .reset (Or.inl rfl)).2,
      by rw [handleCallback, ← hc₁]; rfl⟩
  | streamFin =>
    exact ⟨_, (hend .close (Or.inr rfl)).1, (hend .close (Or.inr rfl)).2,
      by rw [handleCallback, ← hc₁]; rfl⟩
  | stopSending => exact ⟨c₁, he, hq', by rw [handleCallback, ← hc₁]; rfl⟩
  | other => exact ⟨c₁, he, hq', by rw [handleCallback, ← hc₁]; rfl⟩

/-! ### Dropping the receiver of the data to send -/

/-- **A swappable stream was dropped**: its receivers are gone, with all they
held; the other channels, the senders and the errors left are untouched. -/
structure Dropped (s : SwappableStream ChanRef) (h h' : Store (ErrorChan Bytes)) : Prop where
  next : h'.next = h.next
  senders : ∀ q, (h'.cell q).chan.senders = (h.cell q).chan.senders
  errorState : ∀ q, (h'.cell q).errorState = (h.cell q).errorState
  other : ∀ q, q ≠ s.activeStream → s.swapTo ≠ some q → h'.cell q = h.cell q
  gone : ∀ q, q = s.activeStream ∨ s.swapTo = some q →
    (h'.cell q).chan.isOpen = false ∧ (h'.cell q).chan.queue = []

theorem dropSwappable_dropped (s : SwappableStream ChanRef) (h : Store (ErrorChan Bytes)) :
    Dropped s h (dropSwappable s h) := by
  cases hn : s.swapTo with
  | none =>
    simp only [dropSwappable, hn]
    exact {
      next := rfl
      senders := h.modify_cell_congr ErrorChan.dropReceiver (fun ch => ch.chan.senders) rfl
      errorState := h.modify_cell_congr ErrorChan.dropReceiver (fun ch => ch.errorState) rfl
      other := fun q hq _ => h.modify_cell_of_ne _ hq
      gone := by
        rintro q (rfl | hq)
        · rw [Store.modify_cell_self]
          exact ⟨rfl, rfl⟩
        · simp [hn] at hq }
  | some r =>
    simp only [dropSwappable, hn]
    exact {
      next := rfl
      senders := fun q =>
        (Store.modify_cell_congr _ ErrorChan.dropReceiver (fun ch => ch.chan.senders) rfl q).trans
          (h.modify_cell_congr ErrorChan.dropReceiver (fun ch => ch.chan.senders) rfl q)
      errorState := fun q =>
        (Store.modify_cell_congr _ ErrorChan.dropReceiver (fun ch => ch.errorState) rfl q).trans
          (h.modify_cell_congr ErrorChan.dropReceiver (fun ch => ch.errorState) rfl q)
      other := fun q hq hq' => by
        rw [Store.modify_cell_of_ne _ _ fun h => hq' (by rw [hn, h]),
          Store.modify_cell_of_ne _ _ hq]
      gone := by
        intro q hq
        rcases eq_or_ne q r with rfl | hne
        · rw [Store.modify_cell_self]
          exact ⟨rfl, rfl⟩
        · obtain rfl : q = s.activeStream :=
            hq.resolve_right fun h => hne (by simpa [hn] using h.symm)
          rw [Store.modify_cell_of_ne _ _ hne, Store.modify_cell_self]
          exact ⟨rfl, rfl⟩ }

/-- Closing the active receiver first makes no difference. -/
theorem Dropped.of_close {s : SwappableStream ChanRef} {h h' : Store (ErrorChan Bytes)}
    (hd : Dropped s (h.modify s.activeStream ErrorChan.close) h') : Dropped s h h' where
  next := hd.next
  senders q := (hd.senders q).trans
    (h.modify_cell_congr ErrorChan.close (fun ch => ch.chan.senders) rfl q)
  errorState q := (hd.errorState q).trans
    (h.modify_cell_congr ErrorChan.close (fun ch => ch.errorState) rfl q)
  other q hq hq' := (hd.other q hq hq').trans (h.modify_cell_of_ne _ hq)
  gone := hd.gone

/-- The store after the context gave up its receiver, if it had one. -/
def GivenUp (c : Context) (chans : Store (ErrorChan Bytes)) : Prop :=
  (∀ s, c.sendData = some s → Dropped s c.chans chans) ∧ (c.sendData = none → chans = c.chans)

theorem closeSendData_spec (c : Context) :
    ∃ chans, c.closeSendData = { c with sendData := none, chans } ∧ c.GivenUp chans := by
  cases hs : c.sendData with
  | none =>
    have hc : c.closeSendData = c := by rw [closeSendData, hs]
    exact ⟨c.chans, hc.trans (by rw [← hs]), by simp [GivenUp, hs]⟩
  | some s =>
    refine ⟨_, by rw [closeSendData, hs], ?_, by simp [hs]⟩
    intro s' hs'
    obtain rfl : s = s' := by simpa [hs] using hs'
    exact (dropSwappable_dropped s _).of_close

theorem reset_spec (c : Context) :
    ∃ chans, c.reset = { c with
        sendData := none, chans
        stopSendingOrFinSent := true
        calls := c.calls ++ [.resetStream c.id] } ∧ c.GivenUp chans := by
  obtain ⟨chans, hc, hg⟩ := closeSendData_spec { c with stopSendingOrFinSent := true }
  exact ⟨chans, by rw [reset, hc], hg⟩

/-- **The end of the data was seen while polling**: without any data the stream
is reset, else picoquic is asked to fetch the rest – unless nothing more is to be
sent. -/
theorem handleSendDataDropped_spec (c : Context) :
    ∃ chans, c.GivenUp chans ∧
      c.handleSendDataDropped =
        if c.dataSend = false ∧ c.activeBuffer = none then
          { c with
            sendData := none, chans
            stopSendingOrFinSent := true
            calls := c.calls ++ [.resetStream c.id] }
        else if c.stopSendingOrFinSent = false then
          { c with sendData := none, chans, calls := c.calls ++ [.markActiveStream c.id] }
        else { c with sendData := none, chans } := by
  have hcases : ∃ chans, c.GivenUp chans ∧ c.handleSendDataDropped =
      if !c.dataSend && c.activeBuffer.isNone then
        ({ c with sendData := none, chans } : Context).reset
      else if !c.stopSendingOrFinSent then
        { c with sendData := none, chans, calls := c.calls ++ [.markActiveStream c.id] }
      else { c with sendData := none, chans } := by
    cases hs : c.sendData with
    | none =>
      refine ⟨c.chans, by simp [GivenUp, hs], ?_⟩
      simp only [handleSendDataDropped, hs]
    | some s =>
      refine ⟨dropSwappable s c.chans, ⟨fun s' hs' => ?_, by simp [hs]⟩, ?_⟩
      · obtain rfl : s = s' := by simpa [hs] using hs'
        exact dropSwappable_dropped s _
      · simp only [handleSendDataDropped, hs]
  obtain ⟨chans, hg, hc⟩ := hcases
  refine ⟨chans, hg, hc.trans ?_⟩
  by_cases h₁ : c.dataSend = false ∧ c.activeBuffer = none
  · rw [if_pos (by simpa using h₁), if_pos h₁]
    rfl
  · rw [if_neg (by simpa using h₁), if_neg h₁]
    cases c.stopSendingOrFinSent <;> rfl

/-! ### Polling for data -/

/-- **What `poll_send_data` does.** With a buffer in hand, or without a receiver,
it does nothing. Otherwise it pulls once: an item becomes the active buffer and
the stream is marked active, and the end is handled. -/
theorem pollSendData_cases (hd : c.SlotDistinct) :
    ((c.activeBuffer ≠ none ∨ c.sendData = none) ∧ c.pollSendData = c) ∨
    ∃ s s' chans c₁, c.activeBuffer = none ∧ c.sendData = some s ∧
      c₁ = { c with sendData := some s', chans, pulls := c.pulls ++ c.source.poll.1.toList } ∧
      Polled c.sendData c.chans (some s') chans ∧ c₁.SlotDistinct ∧ c₁.source = c.source.poll.2 ∧
      ((∃ buf q, c.source.items = buf :: q ∧ c.pollSendData =
          { c₁ with activeBuffer := some buf, calls := c.calls ++ [.markActiveStream c.id] }) ∨
        (c.source.items = [] ∧ c.source.ended = true ∧ c.pollSendData = c₁.handleSendDataDropped) ∨
        (c.source.items = [] ∧ c.source.ended = false ∧ c.pollSendData = c₁)) := by
  cases ha : c.activeBuffer with
  | some buf => exact Or.inl ⟨Or.inl (by simp), by rw [pollSendData, ha]⟩
  | none =>
    cases hs : c.sendData with
    | none => exact Or.inl ⟨Or.inr rfl, by rw [pollSendData, ha, hs]⟩
    | some s =>
      obtain ⟨s', chans, hc, hr, hsrc, hpolled, hd'⟩ := pull_spec hs hd
      obtain ⟨r, c₁, hp⟩ : ∃ r c₁, c.pull s = (r, c₁) := ⟨_, _, rfl⟩
      rw [hp] at hc hr hsrc hd'
      simp only [ha] at hc hr hsrc hd'
      refine Or.inr ⟨s, s', chans, c₁, rfl, rfl, hc, hs ▸ hpolled, hd', hsrc, ?_⟩
      cases hi : c.source.items with
      | nil =>
        rw [Source.poll_of_nil hi] at hr
        cases he : c.source.ended with
        | true =>
          obtain rfl : r = .ready none := by simpa [he] using hr
          exact Or.inr (Or.inl ⟨rfl, rfl, by simp only [pollSendData, ha, hs, hp]⟩)
        | false =>
          obtain rfl : r = .notReady := by simpa [he] using hr
          exact Or.inr (Or.inr ⟨rfl, rfl, by simp only [pollSendData, ha, hs, hp]⟩)
      | cons buf q =>
        rw [Source.poll_of_cons hi] at hr
        subst hr
        exact Or.inl ⟨buf, q, rfl, by simp only [pollSendData, ha, hs, hp, hc]⟩

/-- Data that is polled for is not in the control messages. -/
theorem pollSendData_controlMsg (hd : c.SlotDistinct) :
    c.pollSendData.controlMsg = c.controlMsg := by
  rcases pollSendData_cases hd with ⟨-, hc⟩ | ⟨s, s', chans, c₁, -, -, hc₁, -, -, -, hcase⟩
  · rw [hc]
  · have h₁ : c₁.controlMsg = c.controlMsg := by rw [hc₁]
    rw [← h₁]
    rcases hcase with ⟨buf, q, -, hc⟩ | ⟨-, -, hc⟩ | ⟨-, -, hc⟩
    · rw [hc]
    · obtain ⟨chans, -, hdrop⟩ := handleSendDataDropped_spec c₁
      rw [hc, hdrop]
      split <;> [rfl; (split <;> rfl)]
    · rw [hc]

/-! ### Control messages -/

/-- The arms of the control loop leave the control channel alone. -/
theorem handleControlMsg_controlMsg {c' : Context} {msg : Message}
    (h : c.handleControlMsg msg = some c') : c'.controlMsg = c.controlMsg := by
  cases msg with
  | reset =>
    obtain rfl : c.reset = c' := by simpa [handleControlMsg] using h
    obtain ⟨chans, hr, -⟩ := reset_spec c
    rw [hr]
  | swapSendData n o =>
    simp only [handleControlMsg, Option.some.injEq] at h
    rw [← h]
    cases c.sendData <;> rfl
  | close => simp [handleControlMsg] at h
  | recvData => simp [handleControlMsg] at h
  | error => simp [handleControlMsg] at h

/-- **The context swaps in a new receiver**: it waits in the slot, the receiver that
was waiting there is dropped with all it held, and so is the old sender. -/
structure Swapped (c : Context) (s : SwappableStream ChanRef) (n o : ChanRef)
    (c' : Context) : Prop where
  frame : ∃ chans, c' = { c with sendData := some (s.setSwapTo n), chans }
  next : c'.chans.next = c.chans.next
  /-- The receivers that stay see no change. -/
  queue : ∀ q, s.swapTo ≠ some q → (c'.chans.cell q).chan.queue = (c.chans.cell q).chan.queue
  isOpen : ∀ q, s.swapTo ≠ some q → (c'.chans.cell q).chan.isOpen = (c.chans.cell q).chan.isOpen
  senders : ∀ q, (c'.chans.cell q).chan.senders =
    if q = o then (c.chans.cell q).chan.senders - 1 else (c.chans.cell q).chan.senders
  errorState : ∀ q, (c'.chans.cell q).errorState = (c.chans.cell q).errorState

theorem handleControlMsg_swap {s : SwappableStream ChanRef} (hs : c.sendData = some s)
    (n o : ChanRef) :
    ∃ c', c.handleControlMsg (.swapSendData n o) = some c' ∧ Swapped c s n o c' := by
  -- the store after the receiver in the slot was dropped
  obtain ⟨h₁, hh₁⟩ : ∃ h₁, h₁ = s.swapTo.elim c.chans
      fun r => c.chans.modify r ErrorChan.dropReceiver := ⟨_, rfl⟩
  have hcell : h₁.next = c.chans.next ∧
      (∀ q, s.swapTo ≠ some q → h₁.cell q = c.chans.cell q) ∧
      (∀ q, (h₁.cell q).chan.senders = (c.chans.cell q).chan.senders) ∧
      ∀ q, (h₁.cell q).errorState = (c.chans.cell q).errorState := by
    rw [hh₁]
    cases hn : s.swapTo with
    | none => exact ⟨rfl, fun _ _ => rfl, fun _ => rfl, fun _ => rfl⟩
    | some r =>
      exact ⟨rfl, fun q hq => c.chans.modify_cell_of_ne _ fun h => hq (by rw [h]),
        c.chans.modify_cell_congr ErrorChan.dropReceiver (fun ch => ch.chan.senders) rfl,
        c.chans.modify_cell_congr ErrorChan.dropReceiver (fun ch => ch.errorState) rfl⟩
  obtain ⟨hnext, hother, hsenders, herror⟩ := hcell
  refine ⟨{ c with sendData := some (s.setSwapTo n), chans := h₁.modify o ErrorChan.dropSender },
    ?_, ?_⟩
  · cases hn : s.swapTo <;> simp only [handleControlMsg, hs, hh₁, hn, Option.elim]
  exact {
    frame := ⟨_, rfl⟩
    next := hnext
    queue := fun q hq =>
      (h₁.modify_cell_congr ErrorChan.dropSender (fun ch => ch.chan.queue) rfl q).trans
        (by rw [hother q hq])
    isOpen := fun q hq =>
      (h₁.modify_cell_congr ErrorChan.dropSender (fun ch => ch.chan.isOpen) rfl q).trans
        (by rw [hother q hq])
    senders := fun q => by
      rw [← hsenders]
      by_cases h : q = o
      · rw [if_pos h, h, Store.modify_cell_self]
        rfl
      · rw [if_neg h, Store.modify_cell_of_ne _ _ h]
    errorState := fun q =>
      (h₁.modify_cell_congr ErrorChan.dropSender (fun ch => ch.errorState) rfl q).trans
        (herror q) }

/-- Without a receiver there is nothing to swap, and both ends are dropped. -/
theorem handleControlMsg_swap_drops (hs : c.sendData = none) (n o : ChanRef) :
    c.handleControlMsg (.swapSendData n o) = some { c with
      chans := (c.chans.modify n ErrorChan.dropReceiver).modify o ErrorChan.dropSender } := by
  simp only [handleControlMsg, hs]

theorem handleControlMsg_swap_of_none (hs : c.sendData = none) (n o : ChanRef) :
    ∃ chans, c.handleControlMsg (.swapSendData n o) = some { c with chans } :=
  ⟨_, handleControlMsg_swap_drops hs n o⟩

/-- **The rule for the control loop.** Where a property survives the handling of each
message, the loop ends with what follows from it in the two ways to end. -/
theorem pollControlMsg_rule {P Q : Context → Prop}
    (hmsg : ∀ (c : Context) msg q, P c → c.controlMsg.queue = msg :: q →
      ∃ c', { c with controlMsg := c.controlMsg.poll.2 }.handleControlMsg msg = some c' ∧ P c')
    (hend : ∀ c : Context, P c → c.controlMsg.queue = [] → c.controlMsg.isEnded = true →
      Q { c with controlMsg := c.controlMsg.poll.2 }.recvMessageDropped)
    (hwait : ∀ c : Context, P c → c.controlMsg.queue = [] → c.controlMsg.isEnded = false →
      Q { c with controlMsg := c.controlMsg.poll.2 })
    (h : P c) : ∃ r c', c.pollControlMsg = some (r, c') ∧ Q c' := by
  suffices hloop : ∀ (q : List Message) (c : Context), c.controlMsg.queue = q → P c →
      ∃ r c', controlLoop (q.length + 1) c = some (r, c') ∧ Q c' from hloop _ c rfl h
  intro q
  induction q with
  | nil =>
    intro c hq hP
    cases he : c.controlMsg.isEnded with
    | true =>
      refine ⟨.ready (), _, ?_, hend c hP hq he⟩
      rw [controlLoop, Chan.poll_of_ended hq he]
    | false =>
      refine ⟨.notReady, _, ?_, hwait c hP hq he⟩
      rw [controlLoop, Chan.poll_of_waiting hq he]
  | cons msg q ih =>
    intro c hq hP
    obtain ⟨c₁, hc₁, hP₁⟩ := hmsg c msg q hP hq
    have hq₁ : c₁.controlMsg.queue = q := by
      rw [handleControlMsg_controlMsg hc₁, Chan.poll_queue, hq, List.tail_cons]
    obtain ⟨r, c₂, hc₂, hP₂⟩ := ih c₁ hq₁ hP₁
    refine ⟨r, c₂, ?_, hP₂⟩
    rw [Chan.poll_of_cons hq] at hc₁
    rw [List.length_cons, controlLoop, Chan.poll_of_cons hq]
    simpa [hc₁] using hc₂

/-- Without a control message, polling for one leaves the sending side alone. -/
theorem pollControlMsg_idle (hq : c.controlMsg.queue = []) :
    ∃ r c', c.pollControlMsg = some (r, c') ∧ Idle c c' := by
  have hpoll : ∀ c' : Context, Idle c c' → Idle c { c' with controlMsg := c'.controlMsg.poll.2 } :=
    fun c' h => ⟨h.sendData, h.next, h.chan, by simp [h.control, hq], h.dataSend, h.stop,
      h.activeBuffer, h.pulls, h.calls⟩
  refine pollControlMsg_rule (P := Idle c) ?_ ?_ ?_ (.refl c)
  · intro c' msg q h hq'
    rw [h.control, hq] at hq'
    exact absurd hq' (List.cons_ne_nil _ _).symm
  · intro c' h _ _
    exact (hpoll c' h).trans (recvMessageDropped_effect _).idle
  · intro c' h _ _
    exact hpoll c' h

/-- Polling the context is polling for control messages and for data; it is
finished once both sides are. -/
theorem poll_of_pollControlMsg {r : Async Unit} {c₁ : Context}
    (h : c.pollControlMsg = some (r, c₁)) :
    c.poll = some (if c₁.pollSendData.stopSendingOrFinSent = true ∧
      c₁.pollSendData.finReceivedOrRecvMsgDropped = true then .ready () else .notReady,
      c₁.pollSendData) := by
  rw [poll, h]
  by_cases hdone : c₁.pollSendData.stopSendingOrFinSent = true ∧
      c₁.pollSendData.finReceivedOrRecvMsgDropped = true
  · rw [if_pos hdone]
    simp [hdone]
  · rw [if_neg hdone]
    exact if_neg (by simpa using hdone)

/-- **A context that is dropped** tells its `Stream`, and gives up its ends of all
channels. -/
theorem drop_spec (c : Context) :
    ∃ chans, c.drop = { c with
      recvMsg := (if c.recvMsg.isOpen = true then c.recvMsg.push .close else c.recvMsg).dropSender
      controlMsg := c.controlMsg.dropReceiver
      sendData := none, chans } := by
  cases ho : c.recvMsg.isOpen with
  | true =>
    obtain ⟨chans, hc, -⟩ := closeSendData_spec { c with recvMsg := c.recvMsg.push .close }
    exact ⟨c.controlMsg.queue.foldl dropMessage chans, by
      simp only [drop, Chan.unboundedSend_of_open ho, hc, if_true]⟩
  | false =>
    obtain ⟨chans, hc, -⟩ := closeSendData_spec c
    exact ⟨c.controlMsg.queue.foldl dropMessage chans, by
      simp only [drop, Chan.unboundedSend_of_closed ho, hc, Bool.false_eq_true, if_false]⟩

end Context

end Streams

end PicoquicRs
