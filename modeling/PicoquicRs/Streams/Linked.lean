import Mathlib.Order.Nat
import PicoquicRs.Streams.Calls
import PicoquicRs.Streams.Effects

/-!
# The chain of channels behind a stream

The application may replace its sender any number of times before the context
notices. At any moment the channels that matter form a chain: the active
receiver, the one waiting in the slot, and the ones in the control messages still
queued, each newer than the one before. The sender of each is held by the control
message that carries the next receiver, and the sender of the newest by the
application (`PicoquicRs.Streams.Chained`).

The chain is kept by every event (`PicoquicRs.Streams.Pair.Linked.step`), and it is
what makes the end of a source mean something: a source ends only after the
`Stream` was dropped (`PicoquicRs.Streams.Pair.Linked.stream_eq_none`). With it come
the two messages a receiver must never see, hence that no event panics.
-/

namespace PicoquicRs

namespace Streams

open Futures Context

/-! ### The chain -/

/-- **The chain of channels from the receiver `r` on**, through the control
messages queued, to the sender `cur` the application holds. -/
def Chained (h : Store (ErrorChan Bytes)) (cur : Option ChanRef) : ChanRef → List Message → Prop
  | r, [] => (h.cell r).chan.isOpen = true ∧
      match cur with
      | some a => a = r ∧ (h.cell r).chan.senders = 1 ∧ r < h.next
      | none => (h.cell r).chan.senders = 0
  | r, .swapSendData newReceiver oldSender :: q =>
      (h.cell r).chan.isOpen = true ∧ oldSender = r ∧ (h.cell r).chan.senders = 1 ∧
        r < newReceiver ∧ Chained h cur newReceiver q
  | r, _ :: q => Chained h cur r q

namespace Chained

variable {h h' : Store (ErrorChan Bytes)} {cur : Option ChanRef} {a r : ChanRef} {q : List Message}

theorem isOpen (hc : Chained h cur r q) : (h.cell r).chan.isOpen = true := by
  induction q with
  | nil => exact hc.1
  | cons m q ih =>
    cases m with
    | swapSendData n o => exact hc.1
    | _ => exact ih hc

/-- The application holds the newest sender. -/
theorem le_cur (hc : Chained h (some a) r q) :
    r ≤ a ∧ a < h.next ∧ (h.cell a).chan.senders = 1 := by
  induction q generalizing r with
  | nil =>
    obtain ⟨-, rfl, hs, hlt⟩ := hc
    exact ⟨le_rfl, hlt, hs⟩
  | cons m q ih =>
    cases m with
    | swapSendData n o =>
      obtain ⟨-, -, -, hlt, hc⟩ := hc
      exact ⟨hlt.le.trans (ih hc).1, (ih hc).2⟩
    | _ => exact ih hc

/-- A chain sees the ends of its channels only. -/
theorem congr (hc : Chained h cur r q) (hnext : h'.next = h.next)
    (hcell : ∀ x, r ≤ x → (h'.cell x).chan.isOpen = (h.cell x).chan.isOpen ∧
      (h'.cell x).chan.senders = (h.cell x).chan.senders) : Chained h' cur r q := by
  induction q generalizing r with
  | nil =>
    obtain ⟨ho', hs'⟩ := hcell r le_rfl
    cases cur with
    | none => exact ⟨ho'.trans hc.1, hs'.trans hc.2⟩
    | some b =>
      obtain ⟨ho, rfl, hs, hr⟩ := hc
      exact ⟨ho'.trans ho, rfl, hs'.trans hs, hnext ▸ hr⟩
  | cons m q ih =>
    cases m with
    | swapSendData n o =>
      obtain ⟨ho', hs'⟩ := hcell r le_rfl
      obtain ⟨ho, rfl, hs, hn, hc⟩ := hc
      exact ⟨ho'.trans ho, rfl, hs'.trans hs, hn, ih hc fun x hx => hcell x (hn.le.trans hx)⟩
    | _ => exact ih hc hcell

theorem of_sameEnds (hc : Chained h cur r q) (hs : SameEnds h h') : Chained h' cur r q :=
  hc.congr hs.next fun x _ => ⟨hs.isOpen x, hs.senders x⟩

/-- A message that swaps nothing does not see the chain. -/
theorem append_other {m : Message} (hc : Chained h cur r q)
    (hm : ∀ n o, m ≠ .swapSendData n o) : Chained h cur r (q ++ [m]) := by
  induction q generalizing r with
  | nil =>
    cases m with
    | swapSendData n o => exact absurd rfl (hm n o)
    | _ => exact hc
  | cons m' q ih =>
    cases m' with
    | swapSendData n o =>
      obtain ⟨ho, rfl, hs, hn, hc⟩ := hc
      exact ⟨ho, rfl, hs, hn, ih hc⟩
    | _ => exact ih hc

/-- **The application swaps its sender**: the chain grows by a fresh channel. -/
theorem append_swap (hc : Chained h (some a) r q) :
    Chained (h.alloc ErrorChan.new) (some h.next) r (q ++ [.swapSendData h.next a]) := by
  induction q generalizing r with
  | nil =>
    obtain ⟨ho, rfl, hs, hlt⟩ := hc
    have hcell := h.alloc_cell_of_lt ErrorChan.new hlt
    refine ⟨?_, rfl, ?_, hlt, ?_, rfl, ?_, Nat.lt_succ_self _⟩
    · rw [hcell, ho]
    · rw [hcell, hs]
    · rw [Store.alloc_cell_self]
      rfl
    · rw [Store.alloc_cell_self]
      rfl
  | cons m q ih =>
    cases m with
    | swapSendData n o =>
      obtain ⟨hle, hlt, -⟩ := le_cur hc
      obtain ⟨ho, rfl, hs, hn, hc⟩ := hc
      have hcell := h.alloc_cell_of_lt ErrorChan.new (hle.trans_lt hlt)
      exact ⟨by rw [hcell, ho], rfl, by rw [hcell, hs], hn, ih hc⟩
    | _ => exact ih hc

/-- **The application drops its sender.** -/
theorem dropSender (hc : Chained h (some a) r q) :
    Chained (h.modify a ErrorChan.dropSender) none r q := by
  induction q generalizing r with
  | nil =>
    obtain ⟨ho, rfl, hs, -⟩ := hc
    refine ⟨?_, ?_⟩
    · rw [Store.modify_cell_self]
      exact ho
    · rw [Store.modify_cell_self]
      exact (congrArg (· - 1) hs).trans rfl
  | cons m q ih =>
    cases m with
    | swapSendData n o =>
      obtain ⟨ho, rfl, hs, hn, hc⟩ := hc
      have hne : o ≠ a := (hn.trans_le (le_cur hc).1).ne
      have hcell := h.modify_cell_of_ne ErrorChan.dropSender hne
      exact ⟨by rw [hcell, ho], rfl, by rw [hcell, hs], hn, ih hc⟩
    | _ => exact ih hc

/-- **A chain whose first channel has no sender consists of that channel**, and the
application holds no sender any more. -/
theorem ended (hc : Chained h cur r q) (hs : (h.cell r).chan.senders = 0) :
    cur = none ∧ ∀ n o, Message.swapSendData n o ∉ q := by
  induction q with
  | nil =>
    cases cur with
    | none => exact ⟨rfl, by simp⟩
    | some b =>
      obtain ⟨-, rfl, hs', -⟩ := hc
      omega
  | cons m q ih =>
    cases m with
    | swapSendData n o =>
      obtain ⟨-, -, hs', -⟩ := hc
      omega
    | _ =>
      obtain ⟨hcur, hq⟩ := ih hc
      exact ⟨hcur, fun n o => by simpa using hq n o⟩

end Chained

/-! ### The chain of a context -/

/-- The callback asks for data and picoquic provides no buffer, which is the only
event that can make a stream panic. -/
def Callback.isNull : Callback → Prop
  | .prepareToSend none _ => True
  | _ => False

namespace Context

/-- **The context and the sender `cur` of the application are linked** by a chain
of channels, and every message travels the right way. -/
structure Linked (c : Context) (cur : Option ChanRef) : Prop where
  /-- The `Stream` is sent no `SwapSendData`. -/
  recv : ∀ n o, Message.swapSendData n o ∉ c.recvMsg.queue
  /-- The context is sent `Reset` and `SwapSendData` only. -/
  control : ∀ m ∈ c.controlMsg.queue, m = .reset ∨ ∃ n o, m = .swapSendData n o
  /-- While a successor waits in the slot, the active channel has no sender. -/
  active : ∀ s r, c.sendData = some s → s.swapTo = some r → s.activeStream < r ∧
    (c.chans.cell s.activeStream).chan.isOpen = true ∧
    (c.chans.cell s.activeStream).chan.senders = 0
  /-- The chain goes on from the newest receiver of the context. -/
  chain : ∀ s, c.sendData = some s →
    Chained c.chans cur (s.swapTo.getD s.activeStream) c.controlMsg.queue

/-- The ends of the channels of messages. -/
def ends (c : Context) : (Bool × ℕ) × (Bool × ℕ) :=
  ((c.recvMsg.isOpen, c.recvMsg.senders), (c.controlMsg.isOpen, c.controlMsg.senders))

/-- **What every function of the context keeps**, while the application holds the
sender `cur`. -/
structure Kept (cur : Option ChanRef) (c c' : Context) : Prop where
  linked : c'.Linked cur
  /-- A receiver of data to send is not made up. -/
  sendData : c'.sendData ≠ none → c.sendData ≠ none
  ends : c'.ends = c.ends
  id : c'.id = c.id
  isClientCon : c'.isClientCon = c.isClientCon

namespace Kept

variable {cur : Option ChanRef} {c c' c'' : Context}

theorem refl (h : c.Linked cur) : Kept cur c c := ⟨h, fun h => h, rfl, rfl, rfl⟩

theorem trans (h : Kept cur c c') (h' : Kept cur c' c'') : Kept cur c c'' where
  linked := h'.linked
  sendData := h.sendData ∘ h'.sendData
  ends := h'.ends.trans h.ends
  id := h'.id.trans h.id
  isClientCon := h'.isClientCon.trans h.isClientCon

end Kept

section

variable {cur : Option ChanRef} {c c' : Context}

namespace Linked

/-- The receiver waiting in the slot is newer than the active one. -/
theorem slotDistinct (h : c.Linked cur) : c.SlotDistinct := by
  intro s hs hn
  exact absurd (h.active s _ hs hn).1 (lt_irrefl _)

/-- The newest receiver of the context is open. -/
theorem isOpen (h : c.Linked cur) {s : SwappableStream ChanRef} (hs : c.sendData = some s) :
    (c.chans.cell s.activeStream).chan.isOpen = true := by
  cases hn : s.swapTo with
  | none =>
    have hc := (h.chain s hs).isOpen
    rwa [hn] at hc
  | some r => exact (h.active s r hs hn).2.1

/-- **The source of a linked context ends only after the application dropped its
sender**, and with no message under way that would bring another receiver. -/
theorem of_ended (h : c.Linked cur) {s : SwappableStream ChanRef} (hs : c.sendData = some s)
    (he : c.source.ended = true) :
    cur = none ∧ ∀ n o, Message.swapSendData n o ∉ c.controlMsg.queue := by
  have hc := h.chain s hs
  refine hc.ended ?_
  have hlast : (c.chans.cell (s.swapTo.getD s.activeStream)).chan.isEnded = true := by
    rw [source_of_some hs, SwappableStream.source] at he
    cases hn : s.swapTo with
    | none =>
      rw [hn] at he
      exact he
    | some r =>
      rw [hn] at he
      exact (Bool.and_eq_true_iff.mp he).2
  simpa [Chan.isEnded, hc.isOpen] using hlast

/-- Nothing is linked without a receiver. -/
theorem of_sendData_none (h : c.Linked cur) (hr : c'.recvMsg.queue = c.recvMsg.queue)
    (hq : c'.controlMsg.queue = c.controlMsg.queue) (hs : c'.sendData = none) : c'.Linked cur where
  recv := by rw [hr]; exact h.recv
  control := by rw [hq]; exact h.control
  active s r hs' := by simp [hs] at hs'
  chain s hs' := by simp [hs] at hs'

/-- Polling the receiver keeps the chain. -/
theorem of_polled (h : c.Linked cur) (hr : c'.recvMsg.queue = c.recvMsg.queue)
    (hq : c'.controlMsg.queue = c.controlMsg.queue)
    (hp : Polled c.sendData c.chans c'.sendData c'.chans) : c'.Linked cur where
  recv := by rw [hr]; exact h.recv
  control := by rw [hq]; exact h.control
  active s r hs' hn := by
    rcases hp.moved with hs | ⟨s₀, r₀, -, -, hs⟩
    · rw [hp.ends.isOpen, hp.ends.senders]
      exact h.active s r (hs ▸ hs') hn
    · obtain rfl := Option.some.inj (hs'.symm.trans hs)
      simp [SwappableStream.new] at hn
  chain s hs' := by
    rw [hq]
    rcases hp.moved with hs | ⟨s₀, r₀, hs₀, hn₀, hs⟩
    · exact (h.chain s (hs ▸ hs')).of_sameEnds hp.ends
    · -- the successor has become the active receiver
      obtain rfl := Option.some.inj (hs'.symm.trans hs)
      have hc := (h.chain s₀ hs₀).of_sameEnds hp.ends
      rw [hn₀] at hc
      exact hc

/-- A receiving side that does something is not seen. -/
theorem of_recvEffect (h : c.Linked cur) (he : RecvEffect c c')
    (hr : ∀ n o, Message.swapSendData n o ∉ c'.recvMsg.queue) : c'.Linked cur := by
  obtain ⟨hs, hch, hq, -⟩ := he.frame_eq
  exact {
    recv := hr
    control := by rw [hq]; exact h.control
    active := by rw [hs, hch]; exact h.active
    chain := by rw [hs, hch, hq]; exact h.chain }

/-- A `Reset` is taken from the queue. -/
theorem pop_reset (h : c.Linked cur) {q : List Message} (hq : c.controlMsg.queue = .reset :: q) :
    { c with controlMsg := c.controlMsg.poll.2 }.Linked cur where
  recv := h.recv
  control m hm := h.control m (List.mem_of_mem_tail (Chan.poll_queue ▸ hm))
  active := h.active
  chain s hs := by
    have hc := h.chain s hs
    rw [hq] at hc
    rw [Chan.poll_queue, hq]
    exact hc

/-- A `SwapSendData` is taken from the queue and handled. -/
theorem swapped (h : c.Linked cur) {s : SwappableStream ChanRef} {n o : ChanRef}
    {q : List Message} (hs : c.sendData = some s)
    (hq : c.controlMsg.queue = .swapSendData n o :: q)
    (hsw : Swapped { c with controlMsg := c.controlMsg.poll.2 } s n o c') : c'.Linked cur := by
  have hc := h.chain s hs
  rw [hq] at hc
  obtain ⟨ho, rfl, hsend, hn, hc⟩ := hc
  obtain ⟨chans, hframe⟩ := hsw.frame
  have hrecv : c'.recvMsg = c.recvMsg := by rw [hframe]
  have hctl : c'.controlMsg.queue = q := by rw [hframe, Chan.poll_queue, hq, List.tail_cons]
  have hs' : c'.sendData = some (s.setSwapTo n) := by rw [hframe]
  -- the active channel is older than the one that was in the slot, if there was one
  have hact : s.activeStream ≤ s.swapTo.getD s.activeStream ∧
      (c.chans.cell s.activeStream).chan.isOpen = true ∧ s.swapTo ≠ some s.activeStream ∧
      (c'.chans.cell s.activeStream).chan.senders = 0 := by
    have hdist := h.slotDistinct s hs
    refine ⟨?_, h.isOpen hs, hdist, ?_⟩
    · cases hslot : s.swapTo with
      | none => exact le_rfl
      | some r => exact (h.active s r hs hslot).1.le
    · rw [hsw.senders]
      cases hslot : s.swapTo with
      | none =>
        rw [hslot] at hsend
        rw [Option.getD_none, if_pos rfl]
        exact (congrArg (· - 1) hsend).trans rfl
      | some r =>
        rw [Option.getD_some, if_neg fun he => hdist (by rw [hslot, he])]
        exact (h.active s r hs hslot).2.2
  obtain ⟨hle, hopen, hdist, hzero⟩ := hact
  exact {
    recv := by rw [hrecv]; exact h.recv
    control := fun m hm => h.control m (by rw [hq]; exact List.mem_cons_of_mem _ (hctl ▸ hm))
    active := by
      intro s' r hs₁ hr
      obtain rfl : s.setSwapTo n = s' := Option.some.inj (hs'.symm.trans hs₁)
      obtain rfl : n = r := Option.some.inj hr
      exact ⟨hle.trans_lt hn, (hsw.isOpen _ hdist).trans hopen, hzero⟩
    chain := by
      intro s' hs₁
      obtain rfl : s.setSwapTo n = s' := Option.some.inj (hs'.symm.trans hs₁)
      rw [hctl]
      refine hc.congr hsw.next fun x hx => ?_
      have hlt := hn.trans_le hx
      refine ⟨hsw.isOpen x fun he => ?_, ?_⟩
      · rw [he, Option.getD_some] at hlt
        exact lt_irrefl _ hlt
      · rw [hsw.senders, if_neg hlt.ne'] }

end Linked

/-! ### The functions of the context -/

namespace Kept

theorem of_recvEffect (h : c.Linked cur) (he : RecvEffect c c')
    (hr : ∀ n o, Message.swapSendData n o ∉ c'.recvMsg.queue) : Kept cur c c' := by
  obtain ⟨hs, -, hq, hid, hcl⟩ := he.frame_eq
  exact {
    linked := h.of_recvEffect he hr
    sendData := by rw [hs]; exact fun h => h
    ends := by rw [Context.ends, Context.ends, he.isOpen, he.senders, hq]
    id := hid
    isClientCon := hcl }

/-- The receiver is given up. -/
theorem of_sendData_none (h : c.Linked cur) (hr : c'.recvMsg = c.recvMsg)
    (hq : c'.controlMsg = c.controlMsg) (hid : c'.id = c.id)
    (hcl : c'.isClientCon = c.isClientCon) (hs : c'.sendData = none) : Kept cur c c' where
  linked := h.of_sendData_none (by rw [hr]) (by rw [hq]) hs
  sendData h' := absurd hs h'
  ends := by rw [Context.ends, Context.ends, hr, hq]
  id := hid
  isClientCon := hcl

theorem of_polled (h : c.Linked cur) (hr : c'.recvMsg = c.recvMsg)
    (hq : c'.controlMsg = c.controlMsg) (hid : c'.id = c.id)
    (hcl : c'.isClientCon = c.isClientCon)
    (hp : Polled c.sendData c.chans c'.sendData c'.chans) : Kept cur c c' where
  linked := h.of_polled (by rw [hr]) (by rw [hq]) hp
  sendData h' hn := h' (Moved.of_none (hn ▸ hp.moved))
  ends := by rw [Context.ends, Context.ends, hr, hq]
  id := hid
  isClientCon := hcl

end Kept

theorem recvMessageDropped_kept (h : c.Linked cur) : Kept cur c c.recvMessageDropped := by
  refine .of_recvEffect h (recvMessageDropped_effect c) ?_
  cases hf : c.finReceivedOrRecvMsgDropped with
  | true =>
    rw [recvMessageDropped_of_true hf]
    exact h.recv
  | false =>
    rw [recvMessageDropped_of_false hf]
    exact h.recv

theorem recvMessage_kept (h : c.Linked cur) {msg : Message}
    (hm : ∀ n o, msg ≠ .swapSendData n o) : Kept cur c (c.recvMessage msg) := by
  refine .of_recvEffect h (recvMessage_effect c msg) fun n o hmem => ?_
  rcases recvMessage_queue msg hmem with hmem | hmem
  · exact h.recv n o hmem
  · exact hm n o hmem.symm

theorem reset_kept (h : c.Linked cur) : Kept cur c c.reset := by
  obtain ⟨chans, hc, -⟩ := reset_spec c
  rw [hc]
  exact .of_sendData_none h rfl rfl rfl rfl rfl

theorem handleSendData_kept (h : c.Linked cur) (dest : DataBuffer) (maxLength : ℕ) :
    ∃ c', c.handleSendData (some dest) maxLength = some c' ∧ Kept cur c c' := by
  obtain ⟨c', hc', hspec⟩ := handleSendData_spec dest maxLength h.slotDistinct
  obtain ⟨sd, ch, pl, ab, hframe, hpoll⟩ := hspec.frame
  refine ⟨c', hc', ?_⟩
  rw [hframe]
  exact .of_polled h rfl rfl rfl rfl hpoll

theorem handleSendDataDropped_kept (h : c.Linked cur) : Kept cur c c.handleSendDataDropped := by
  obtain ⟨chans, -, hc⟩ := handleSendDataDropped_spec c
  rw [hc]
  split
  · exact .of_sendData_none h rfl rfl rfl rfl rfl
  · split <;> exact .of_sendData_none h rfl rfl rfl rfl rfl

theorem pollSendData_kept (h : c.Linked cur) : Kept cur c c.pollSendData := by
  rcases pollSendData_cases h.slotDistinct with
    ⟨-, hc⟩ | ⟨s, s', chans, c₁, ha, hs, hc₁, hpoll, -, -, hcase⟩
  · rw [hc]
    exact .refl h
  · have hk₁ : Kept cur c c₁ := by
      rw [hc₁]
      exact .of_polled h rfl rfl rfl rfl hpoll
    rcases hcase with ⟨buf, q, -, hc⟩ | ⟨-, -, hc⟩ | ⟨-, -, hc⟩
    · rw [hc, hc₁]
      exact .of_polled h rfl rfl rfl rfl hpoll
    · rw [hc]
      exact hk₁.trans (handleSendDataDropped_kept hk₁.linked)
    · rw [hc]
      exact hk₁

theorem handleControlMsg_kept (h : c.Linked cur) {msg : Message} {q : List Message}
    (hq : c.controlMsg.queue = msg :: q) :
    ∃ c', { c with controlMsg := c.controlMsg.poll.2 }.handleControlMsg msg = some c' ∧
      Kept cur c c' := by
  rcases h.control msg (by simp [hq]) with rfl | ⟨n, o, rfl⟩
  · refine ⟨_, rfl, ?_⟩
    have hk := reset_kept (h.pop_reset hq)
    exact ⟨hk.linked, hk.sendData, hk.ends.trans (by simp [ends]), hk.id,
      hk.isClientCon⟩
  · rcases Option.eq_none_or_eq_some c.sendData with hs | ⟨s, hs⟩
    · obtain ⟨chans, hc'⟩ := handleControlMsg_swap_of_none
        (c := { c with controlMsg := c.controlMsg.poll.2 }) hs n o
      refine ⟨_, hc', ?_, fun h => h, by simp [ends], rfl, rfl⟩
      exact {
        recv := h.recv
        control := fun m hm => h.control m
          (List.mem_of_mem_tail (Chan.poll_queue (c := c.controlMsg) ▸ hm))
        active := by simp [hs]
        chain := by simp [hs] }
    · obtain ⟨c', hc', hsw⟩ := handleControlMsg_swap
        (c := { c with controlMsg := c.controlMsg.poll.2 }) hs n o
      obtain ⟨chans, hframe⟩ := hsw.frame
      refine ⟨c', hc', h.swapped hs hq hsw, by simp [hs], ?_, ?_, ?_⟩
      · simp [hframe, ends]
      · rw [hframe]
      · rw [hframe]

/-- Taking the answer of an empty queue changes neither the chain nor the ends. -/
theorem Linked.pollEmpty (h : c.Linked cur) (hq : c.controlMsg.queue = []) :
    Kept cur c { c with controlMsg := c.controlMsg.poll.2 } := by
  refine ⟨?_, fun h => h, by simp [ends], rfl, rfl⟩
  exact {
    recv := h.recv
    control := by simp [hq]
    active := h.active
    chain := by
      have hc := h.chain
      simpa [hq] using hc }

/-- **The rule for the control loop of a linked context**: a property that the sending
side alone decides has to survive each message. -/
theorem Linked.pollControlMsg_rule {P : Context → Prop}
    (hidle : ∀ c c' : Context, P c → Idle c c' → P c')
    (hmsg : ∀ (c c' : Context) msg q, c.Linked cur → P c → c.controlMsg.queue = msg :: q →
      { c with controlMsg := c.controlMsg.poll.2 }.handleControlMsg msg = some c' → P c')
    (hl : c.Linked cur) (h : P c) :
    ∃ r c', c.pollControlMsg = some (r, c') ∧ Kept cur c c' ∧ P c' := by
  have hpoll : ∀ c' : Context, c'.controlMsg.queue = [] →
      Idle c' { c' with controlMsg := c'.controlMsg.poll.2 } := fun c' hq =>
    ⟨rfl, rfl, fun _ => rfl, by simp [hq], rfl, rfl, rfl, rfl, [], by simp, by simp⟩
  refine Context.pollControlMsg_rule (P := fun c' => Kept cur c c' ∧ P c') ?_ ?_ ?_ ⟨.refl hl, h⟩
  · rintro c' msg q ⟨hk, hP⟩ hq
    obtain ⟨c₁, hc₁, hk₁⟩ := handleControlMsg_kept hk.linked hq
    exact ⟨c₁, hc₁, hk.trans hk₁, hmsg c' c₁ msg q hk.linked hP hq hc₁⟩
  · rintro c' ⟨hk, hP⟩ hq -
    have hk' := hk.trans (hk.linked.pollEmpty hq)
    exact ⟨hk'.trans (recvMessageDropped_kept hk'.linked),
      hidle c' _ hP ((hpoll c' hq).trans (recvMessageDropped_effect _).idle)⟩
  · rintro c' ⟨hk, hP⟩ hq -
    exact ⟨hk.trans (hk.linked.pollEmpty hq), hidle c' _ hP (hpoll c' hq)⟩

theorem pollControlMsg_kept (h : c.Linked cur) :
    ∃ r c', c.pollControlMsg = some (r, c') ∧ Kept cur c c' := by
  obtain ⟨r, c', hc', hk, -⟩ := h.pollControlMsg_rule (P := fun _ => True)
    (fun _ _ _ _ => trivial) (fun _ _ _ _ _ _ _ _ => trivial) trivial
  exact ⟨r, c', hc', hk⟩

theorem handleCallback_kept (h : c.Linked cur) {cb : Callback} (hcb : ¬ cb.isNull) :
    ∃ c', c.handleCallback cb = some c' ∧ Kept cur c c' := by
  cases cb with
  | prepareToSend dest maxLength =>
    cases dest with
    | none => exact absurd trivial hcb
    | some dest => exact handleSendData_kept h dest maxLength
  | data bytes event =>
    obtain ⟨c₁, he, hqueue, hc⟩ := handleCallback_data (c := c) bytes event
    have hk : Kept cur c c₁ := .of_recvEffect h he fun n o hm => by
      rcases hqueue _ hm with hm | hm | hm | hm
      · exact h.recv n o hm
      all_goals simp at hm
    refine ⟨_, hc, ?_⟩
    split
    · obtain ⟨chans, hclose, -⟩ := closeSendData_spec { c₁ with stopSendingOrFinSent := true }
      rw [hclose]
      exact hk.trans (.of_sendData_none hk.linked rfl rfl rfl rfl rfl)
    · exact hk

theorem handleConnectionError_kept (h : c.Linked cur) (err : Error) :
    Kept cur c (c.handleConnectionError err) := by
  have hk : Kept cur c (c.recvMessage (.error err)) := recvMessage_kept h (by simp)
  obtain ⟨hs₁, hch₁, -⟩ := (recvMessage_effect c (.error err)).frame_eq
  obtain ⟨c₁, chans, hc₁, hc, hnext, hchan, -⟩ := handleConnectionError_spec c err
  rw [← hc₁] at hk hs₁ hch₁
  rw [hc]
  refine ⟨?_, hk.sendData, hk.ends, hk.id, hk.isClientCon⟩
  exact {
    recv := hk.linked.recv
    control := hk.linked.control
    active := fun s r hs hr => by
      rw [hchan, ← hch₁]
      exact hk.linked.active s r hs hr
    chain := fun s hs => (hch₁ ▸ hk.linked.chain s hs).congr hnext fun x _ => by
      rw [hchan]
      exact ⟨rfl, rfl⟩ }

theorem handleConnectionClose_kept (h : c.Linked cur) :
    Kept cur c c.handleConnectionClose := recvMessage_kept h (by simp)

end

/-! ### The calls of the application -/

section

variable {c : Context} {cur : Option ChanRef} {a : ChanRef}

theorem Linked.pushData (h : c.Linked cur) (r : ChanRef) (item : Bytes) :
    Kept cur c (c.pushData r item) := by
  have hcell : ∀ q, ((c.pushData r item).chans.cell q).chan.isOpen =
      (c.chans.cell q).chan.isOpen ∧ ((c.pushData r item).chans.cell q).chan.senders =
      (c.chans.cell q).chan.senders := fun q =>
    ⟨c.chans.modify_cell_congr (fun ch => { ch with chan := ch.chan.push item })
        (fun ch => ch.chan.isOpen) rfl q,
      c.chans.modify_cell_congr (fun ch => { ch with chan := ch.chan.push item })
        (fun ch => ch.chan.senders) rfl q⟩
  refine ⟨?_, fun h => h, rfl, rfl, rfl⟩
  exact {
    recv := h.recv
    control := h.control
    active := fun s r' hs hr => by
      rw [(hcell _).1, (hcell _).2]
      exact h.active s r' hs hr
    chain := fun s hs => (h.chain s hs).congr rfl fun x _ => hcell x }

theorem Linked.pushReset (h : c.Linked cur) : Kept cur c (c.pushControl .reset) := by
  refine ⟨?_, fun h => h, rfl, rfl, rfl⟩
  exact {
    recv := h.recv
    control := fun m hm => by
      rcases List.mem_append.mp hm with hm | hm
      · exact h.control m hm
      · exact Or.inl (List.mem_singleton.mp hm)
    active := h.active
    chain := fun s hs => (h.chain s hs).append_other (by simp) }

theorem Linked.pushSwap (h : c.Linked (some a)) : (c.pushSwap a).Linked (some c.chans.next) where
  recv := h.recv
  control m hm := by
    rcases List.mem_append.mp hm with hm | hm
    · exact h.control m hm
    · exact Or.inr ⟨_, _, List.mem_singleton.mp hm⟩
  active s r hs hr := by
    -- the channels of the context are older than the fresh one
    have hlt : s.activeStream < c.chans.next := by
      have hle := (h.chain s hs).le_cur
      rw [hr, Option.getD_some] at hle
      exact (h.active s r hs hr).1.trans (hle.1.trans_lt hle.2.1)
    have hcell := c.chans.alloc_cell_of_lt ErrorChan.new hlt
    simp only [Context.pushSwap, hcell]
    exact h.active s r hs hr
  chain s hs := (h.chain s hs).append_swap

theorem Linked.popRecv (h : c.Linked cur) : Kept cur c c.popRecv := by
  refine ⟨?_, fun h => h, by simp [Context.ends, Context.popRecv], rfl, rfl⟩
  exact {
    recv := fun n o hm => h.recv n o (List.mem_of_mem_tail (Chan.poll_queue (c := c.recvMsg) ▸ hm))
    control := h.control
    active := h.active
    chain := h.chain }

/-- The sender, and the two channels of messages, are dropped. -/
theorem Linked.dropStream {s : Stream} (h : c.Linked s.sendData)
    (hp : c.sendData ≠ none → s.sendData ≠ none) : (s.drop c).Linked none where
  recv := by simp [Stream.drop, Chan.dropReceiver]
  control := h.control
  active := by
    intro s' r hs hr
    obtain ⟨a, ha⟩ := Option.ne_none_iff_exists'.mp
      (hp (by rw [show c.sendData = some s' from hs]; simp))
    have hlt := h.active s' r hs hr
    have hle := ((ha ▸ h).chain s' hs).le_cur
    rw [hr, Option.getD_some] at hle
    have hne : s'.activeStream ≠ a := (hlt.1.trans_le hle.1).ne
    simp only [Stream.drop, ha, Store.modify_cell_of_ne _ _ hne]
    exact hlt
  chain := by
    intro s' hs
    obtain ⟨a, ha⟩ := Option.ne_none_iff_exists'.mp
      (hp (by rw [show c.sendData = some s' from hs]; simp))
    have hc := ((ha ▸ h).chain s' hs).dropSender
    simpa only [Stream.drop, ha, Chan.dropSender] using hc

end

end Context

/-! ### The chain of a pair -/

/-- The event is a callback without a buffer. -/
def Event.isNull : Event → Prop
  | .callback cb => cb.isNull
  | _ => False

namespace Pair

variable {p : Pair} {s : Stream}

/-- The sender the application holds. -/
def cur (p : Pair) : Option ChanRef := (p.stream.map Stream.sendData).join

/-- **The two ends are linked**: by the chain of channels, and by the channels of
messages. -/
structure Linked (p : Pair) : Prop where
  ctx : p.ctx.Linked p.cur
  /-- The application has a sender as long as the context has a receiver. -/
  paired : ∀ s, p.stream = some s → p.ctx.sendData ≠ none → s.sendData ≠ none
  /-- A context that was dropped has no receiver. -/
  dropped : p.alive = false → p.ctx.sendData = none
  ends : p.ctx.ends =
    ((p.stream.isSome, if p.alive then 1 else 0), (p.alive, if p.stream.isSome then 1 else 0))

namespace Linked

/-- **A source ends only after the `Stream` was dropped.** -/
theorem stream_eq_none (h : p.Linked) {s : SwappableStream ChanRef} (hs : p.ctx.sendData = some s)
    (he : p.ctx.source.ended = true) :
    p.stream = none ∧ ∀ n o, Message.swapSendData n o ∉ p.ctx.controlMsg.queue := by
  obtain ⟨hcur, hq⟩ := h.ctx.of_ended hs he
  refine ⟨?_, hq⟩
  cases hstream : p.stream with
  | none => rfl
  | some st =>
    have hne := h.paired st hstream (by simp [hs])
    simp [cur, hstream] at hcur
    exact absurd hcur hne

/-- The context is dropped. -/
theorem drop (h : p.Linked) (ha : p.alive = true) :
    { p with ctx := p.ctx.drop, alive := false }.Linked := by
  obtain ⟨chans, hc⟩ := drop_spec p.ctx
  have hends := h.ends
  simp only [Context.ends, ha, if_true, Prod.mk.injEq] at hends
  obtain ⟨⟨hro, hrs⟩, -, hcs⟩ := hends
  rw [hc]
  exact {
    ctx := {
      recv := by
        intro n o hm
        refine h.ctx.recv n o ?_
        cases ho : p.ctx.recvMsg.isOpen with
        | true => simpa [Chan.dropSender, ho] using hm
        | false => simpa [Chan.dropSender, ho] using hm
      control := by simp [Chan.dropReceiver]
      active := by simp
      chain := by simp }
    paired := by simp
    dropped := by simp
    ends := by
      cases ho : p.ctx.recvMsg.isOpen <;>
        simp [Context.ends, Chan.dropSender, Chan.dropReceiver, ho, hrs, hcs, ← hro] }

/-- The application kept its sender, and the context was kept linked. -/
theorem of_kept {p' : Pair} (h : p.Linked) (hk : Kept p.cur p.ctx p'.ctx)
    (hs : p'.stream.map Stream.sendData = p.stream.map Stream.sendData)
    (ha : p'.alive = p.alive) : p'.Linked where
  ctx := by
    rw [cur, hs]
    exact hk.linked
  paired s hst hsome := by
    rw [hst, Option.map_some] at hs
    obtain ⟨s', hs', heq⟩ := Option.map_eq_some_iff.mp hs.symm
    rw [← heq]
    exact h.paired s' hs' (hk.sendData hsome)
  dropped hd := by
    by_contra hne
    exact hk.sendData hne (h.dropped (ha ▸ hd))
  ends := by
    have hsome : p'.stream.isSome = p.stream.isSome := by
      simpa using congrArg Option.isSome hs
    rw [hk.ends, h.ends, hsome, ha]

end Linked

theorem new_linked (id : Id) (isClientCon : Bool) : (Streams.new id isClientCon).Linked := by
  by_cases hd : (isUnidirectional id && !isUnidirectionalSendAllowed id isClientCon) = true
  · simp only [Streams.new, createSendAndRecvData, if_pos hd]
    exact {
      ctx := {
        recv := by simp [Context.new, Chan.new]
        control := by simp [Context.new, Chan.new]
        active := by simp [Context.new]
        chain := by simp [Context.new] }
      paired := by simp [Context.new]
      dropped := by simp
      ends := rfl }
  · simp only [Streams.new, createSendAndRecvData, if_neg hd]
    exact {
      ctx := {
        recv := by simp [Context.new, Chan.new]
        control := by simp [Context.new, Chan.new]
        active := by
          intro s r hs hr
          obtain rfl := Option.some.inj hs
          simp [SwappableStream.new] at hr
        chain := by
          intro s hs
          obtain rfl := Option.some.inj hs
          exact ⟨rfl, rfl, rfl, Nat.zero_lt_one⟩ }
      paired := by simp
      dropped := by simp
      ends := rfl }

/-- **A step of the application keeps the two ends linked**, and does not panic. -/
theorem stepStream_linked (h : p.Linked) (hs : p.stream = some s) {e : Event}
    (he : e.atStream = true) : ∃ p', p.stepStream s e = some p' ∧ p'.Linked := by
  have hcur : p.cur = s.sendData := by simp [cur, hs]
  have hends := h.ends
  have hctx := h.ctx
  rw [hcur] at hctx
  cases e with
  | startSend item room =>
    rcases stepStream_startSend (p := p) (s := s) item room with ⟨r, -, -, h'⟩ | h'
    · exact ⟨_, h', h.of_kept (h.ctx.pushData r item) rfl rfl⟩
    · exact ⟨_, h', h⟩
  | setSendChannelSize =>
    rcases stepStream_setSendChannelSize hs with
      ⟨-, h'⟩ | ⟨a, c', ha, h', ⟨ho, rfl⟩ | ⟨ho, chans, rfl⟩⟩
    · exact ⟨_, h', h⟩
    · refine ⟨_, h', ?_⟩
      exact {
        ctx := (ha ▸ hctx).pushSwap
        paired := by simp
        dropped := h.dropped
        ends := by simpa [hs, Context.ends, pushSwap] using hends }
    · -- the context is gone, and its receiver with it
      have hn := h.dropped (by simpa [Context.ends, ho] using congrArg (fun e => e.2.1) hends.symm)
      refine ⟨_, h', ?_⟩
      exact {
        ctx := {
          recv := h.ctx.recv
          control := h.ctx.control
          active := by simp [hn]
          chain := by simp [hn] }
        paired := by simp
        dropped := h.dropped
        ends := by simpa [hs, Context.ends] using hends }
  | reset =>
    rcases stepStream_reset (p := p) (s := s) with ⟨-, h'⟩ | ⟨-, h'⟩
    · exact ⟨_, h', h.of_kept h.ctx.pushReset rfl rfl⟩
    · exact ⟨_, h', h⟩
  | pollStream =>
    obtain ⟨o, s', hpoll, hsd, -⟩ := Stream.poll_frame s p.ctx h.ctx.recv
    refine ⟨_, stepStream_pollStream hpoll, h.of_kept h.ctx.popRecv ?_ rfl⟩
    simp [hs, hsd]
  | dropStream =>
    refine ⟨_, rfl, ?_⟩
    exact {
      ctx := hctx.dropStream fun hne => h.paired s hs hne
      paired := by simp
      dropped := h.dropped
      ends := by
        rw [hs] at hends
        simp [Context.ends] at hends
        simp [Context.ends, Stream.drop, Chan.dropReceiver, Chan.dropSender, hends] }
  | _ => simp [Event.atStream] at he

/-- **A step of the event loop keeps the two ends linked**, and panics only if
picoquic provides no buffer. -/
theorem stepContext_linked (h : p.Linked) (ha : p.alive = true) {e : Event}
    (he : e.atStream = false) (hnull : ¬ e.isNull) :
    ∃ p', p.stepContext e = some p' ∧ p'.Linked := by
  cases e with
  | callback cb =>
    obtain ⟨c', hc', hk⟩ := handleCallback_kept h.ctx hnull
    exact ⟨_, stepContext_callback hc', h.of_kept hk rfl rfl⟩
  | pollControlMsg =>
    obtain ⟨r, c', hc', hk⟩ := pollControlMsg_kept h.ctx
    exact ⟨_, stepContext_pollControlMsg hc', h.of_kept hk rfl rfl⟩
  | pollSendData => exact ⟨_, rfl, h.of_kept (pollSendData_kept h.ctx) rfl rfl⟩
  | poll =>
    obtain ⟨r, c', hc', hk⟩ := pollControlMsg_kept h.ctx
    have hl : { p with ctx := c'.pollSendData }.Linked :=
      h.of_kept (hk.trans (pollSendData_kept hk.linked)) rfl rfl
    refine ⟨_, stepContext_poll hc', ?_⟩
    split
    · exact hl.drop ha
    · exact hl
  | connectionError err =>
    exact ⟨_, rfl, h.of_kept (handleConnectionError_kept h.ctx err) rfl rfl⟩
  | connectionClose => exact ⟨_, rfl, h.of_kept (handleConnectionClose_kept h.ctx) rfl rfl⟩
  | dropContext => exact ⟨_, rfl, h.drop ha⟩
  | _ => simp [Event.atStream] at he

/-- **Every step keeps the two ends linked**, and panics only if picoquic provides no
buffer. -/
theorem Linked.step (h : p.Linked) {e : Event} (hnull : ¬ e.isNull) :
    ∃ p', p.step e = some p' ∧ p'.Linked := by
  rw [Pair.step]
  cases he : e.atStream with
  | true =>
    rw [if_pos rfl]
    cases hs : p.stream with
    | none => exact ⟨p, rfl, h⟩
    | some s => exact stepStream_linked h hs he
  | false =>
    rw [if_neg Bool.false_ne_true]
    split
    · exact stepContext_linked h ‹_› he hnull
    · exact ⟨p, rfl, h⟩

/-- Wherever a step leads, the two ends are linked there. -/
theorem Linked.of_step (h : p.Linked) {e : Event} {p' : Pair} (hstep : p.step e = some p') :
    p'.Linked := by
  by_cases hnull : e.isNull
  · cases e with
    | callback cb =>
      cases cb with
      | prepareToSend dest n =>
        cases dest with
        | none =>
          cases ha : p.alive with
          | true =>
            simp [Pair.step, Event.atStream, ha, stepContext, handleCallback, handleSendData]
              at hstep
          | false =>
            obtain rfl : p = p' := by simpa [Pair.step, Event.atStream, ha] using hstep
            exact h
        | some dest => exact absurd hnull id
      | data bytes event => exact absurd hnull id
    | _ => exact absurd hnull id
  · obtain ⟨p₁, hp₁, hl⟩ := h.step hnull
    obtain rfl := Option.some.inj (hp₁.symm.trans hstep)
    exact hl

end Pair

end Streams

end PicoquicRs
