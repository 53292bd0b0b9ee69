import Mathlib.Data.List.Basic

/-!
# Polled channels

The pieces of an asynchronous program that every component is made of, after
their documented behaviour:

* `Futures.Async` – what polling gives: not ready yet, or a value;
* `Futures.Chan` – a multi-producer channel with one receiver. It is first in
  first out; sending fails exactly when the receiver was closed or dropped; the
  receiver gets the end (`ready none`) exactly when nothing is queued and either
  all senders are gone or the receiver was closed;
* `Futures.Oneshot` – a channel for one value.

Polling a source registers the polling task exactly when the answer is
`notReady`; `registered` remembers whether that was the last answer. A receiver that is
registered, or that can get nothing any more, is *watched* (`Futures.Chan.Watched`).
-/

namespace Futures

universe u

/-- The outcome of polling a source. -/
inductive Async (α : Type u) where
  /-- Nothing yet; the task is woken when that changes. -/
  | notReady : Async α
  /-- A value. -/
  | ready : α → Async α
  deriving DecidableEq, Repr

namespace Async

variable {α : Type u}

/-- The values an outcome carries, none or one. -/
def toList : Async α → List α
  | notReady => []
  | ready a => [a]

@[simp] theorem toList_notReady : (notReady : Async α).toList = [] := rfl

@[simp] theorem toList_ready (a : α) : (ready a).toList = [a] := rfl

end Async

/-- The outcome of starting to send into a sink: taken, or handed back because
there is no room now. -/
inductive AsyncSink (α : Type u) where
  /-- The item was taken. -/
  | ready : AsyncSink α
  /-- No room; the item comes back. -/
  | notReady : α → AsyncSink α
  deriving DecidableEq, Repr

/-! ### Sources -/

/-- **A source**: what a receiver can still get – the items that are there, and
whether the end follows them. -/
structure Source (α : Type u) where
  /-- The items that are there, oldest first. -/
  items : List α
  /-- No item will be added. -/
  ended : Bool
  deriving DecidableEq, Repr

namespace Source

variable {α : Type u} (s t : Source α)

/-- Taking the next item. -/
def poll : Async (Option α) × Source α :=
  match s.items with
  | a :: q => (.ready (some a), { s with items := q })
  | [] => (if s.ended then .ready none else .notReady, s)

/-- One source after the other: the second is reached once the first has ended. -/
def append : Source α where
  items := s.items ++ if s.ended then t.items else []
  ended := s.ended && t.ended

variable {s t}

theorem poll_of_cons {a : α} {q : List α} (h : s.items = a :: q) :
    s.poll = (.ready (some a), { s with items := q }) := by
  simp [poll, h]

theorem poll_of_nil (h : s.items = []) :
    s.poll = (if s.ended then .ready none else .notReady, s) := by
  simp [poll, h]

/-- The end is reached exactly when nothing is there and nothing will come. -/
theorem poll_eq_end : s.poll.1 = .ready none ↔ s.items = [] ∧ s.ended = true := by
  unfold poll
  split <;> simp_all

/-- Polling gets an item exactly when one is there. -/
theorem poll_eq_item {a : α} : s.poll.1 = .ready (some a) ↔ ∃ q, s.items = a :: q := by
  unfold poll
  split
  · simp_all
  · split <;> simp_all

theorem append_of_ended (h : s.ended = true) : s.append t = ⟨s.items ++ t.items, t.ended⟩ := by
  simp [append, h]

theorem append_of_not_ended (h : s.ended = false) : s.append t = s := by
  cases s
  simp_all [append]

/-- A source that is used up is skipped. -/
theorem append_of_used_up (hs : s.items = []) (h : s.ended = true) : s.append t = t := by
  simp [append, hs, h]

end Source

/-! ### Channels -/

/-- **A channel**, as its two sides see it together. -/
structure Chan (α : Type u) where
  /-- The items sent and not received yet, oldest first. -/
  queue : List α
  /-- How many senders are alive. -/
  senders : ℕ
  /-- The receiver has been neither closed nor dropped. -/
  isOpen : Bool
  /-- The last poll answered `notReady`. -/
  registered : Bool
  deriving DecidableEq, Repr

namespace Chan

variable {α : Type u} (c : Chan α) (a : α)

/-- A fresh channel with one sender. -/
def new : Chan α where
  queue := []
  senders := 1
  isOpen := true
  registered := false

/-- The channel with one more item queued. -/
def push : Chan α := { c with queue := c.queue ++ [a] }

/-- `unbounded_send`: the channel with the item queued, `none` when the receiver
is gone – the caller then has the item back. -/
def unboundedSend : Option (Chan α) := if c.isOpen then some (c.push a) else none

/-- `start_send`. Whether a bounded channel has room is up to its receiver's
speed, hence the argument `room`; a closed channel fails whatever its room. -/
def startSend (room : Bool) : Except α (AsyncSink α) × Chan α :=
  if c.isOpen then
    if room then (.ok .ready, c.push a) else (.ok (.notReady a), c)
  else (.error a, c)

/-- Nothing can be queued any more. -/
def isEnded : Bool := c.senders == 0 || !c.isOpen

/-- `poll`, at the receiver. -/
def poll : Async (Option α) × Chan α :=
  match c.queue with
  | a :: q => (.ready (some a), { c with queue := q, registered := false })
  | [] =>
    if c.isEnded then (.ready none, { c with registered := false })
    else (.notReady, { c with registered := true })

/-- What the receiver can still get. -/
def source : Source α where
  items := c.queue
  ended := c.isEnded

/-- `close`, at the receiver: what is queued can still be received. -/
def close : Chan α := { c with isOpen := false }

/-- The receiver is dropped, and what was queued with it. -/
def dropReceiver : Chan α := { c with queue := [], isOpen := false }

/-- One sender is dropped. -/
def dropSender : Chan α := { c with senders := c.senders - 1 }

/-- One sender is cloned. -/
def cloneSender : Chan α := { c with senders := c.senders + 1 }

variable {c a}

@[simp] theorem push_queue : (c.push a).queue = c.queue ++ [a] := rfl

@[simp] theorem push_senders : (c.push a).senders = c.senders := rfl

@[simp] theorem push_isOpen : (c.push a).isOpen = c.isOpen := rfl

theorem unboundedSend_of_open (h : c.isOpen = true) : c.unboundedSend a = some (c.push a) :=
  if_pos h

theorem unboundedSend_of_closed (h : c.isOpen = false) : c.unboundedSend a = none :=
  if_neg (by simp [h])

@[simp] theorem source_items : c.source.items = c.queue := rfl

@[simp] theorem source_ended : c.source.ended = c.isEnded := rfl

theorem poll_of_cons {q : List α} (h : c.queue = a :: q) :
    c.poll = (.ready (some a), { c with queue := q, registered := false }) := by
  simp [poll, h]

theorem poll_of_ended (h : c.queue = []) (he : c.isEnded = true) :
    c.poll = (.ready none, { c with registered := false }) := by
  simp [poll, h, he]

theorem poll_of_waiting (h : c.queue = []) (he : c.isEnded = false) :
    c.poll = (.notReady, { c with registered := true }) := by
  simp [poll, h, he]

/-- Polling a channel is taking the next item of its source. -/
theorem poll_source (c : Chan α) :
    c.poll.1 = c.source.poll.1 ∧ c.poll.2.source = c.source.poll.2 := by
  cases hq : c.queue with
  | nil =>
    rw [Source.poll_of_nil (s := c.source) hq]
    cases he : c.isEnded with
    | true =>
      rw [poll_of_ended hq he]
      exact ⟨by simp [he], by simp [source, isEnded]⟩
    | false =>
      rw [poll_of_waiting hq he]
      exact ⟨by simp [he], by simp [source, isEnded]⟩
  | cons a q =>
    rw [Source.poll_of_cons (s := c.source) hq, poll_of_cons hq]
    exact ⟨rfl, by simp [source, isEnded]⟩

/-- Polling takes the first item off the queue. -/
@[simp] theorem poll_queue : c.poll.2.queue = c.queue.tail := by
  unfold poll
  split
  · simp [*]
  · split <;> simp [*]

/-- Polling moves neither end of the channel. -/
@[simp] theorem poll_senders : c.poll.2.senders = c.senders := by
  unfold poll
  split <;> [rfl; (split <;> rfl)]

@[simp] theorem poll_isOpen : c.poll.2.isOpen = c.isOpen := by
  unfold poll
  split <;> [rfl; (split <;> rfl)]

/-- Nothing can be received any more. -/
def Terminated (c : Chan α) : Prop := c.queue = [] ∧ c.isEnded = true

/-- **The receiver is watched**: the task is woken by what comes, as the last poll answered
`notReady`; or nothing can come. -/
def Watched (c : Chan α) : Prop := c.registered = true ∨ c.Terminated

/-- Whoever polls until nothing is there watches the receiver. -/
theorem watched_poll (hq : c.queue = []) : c.poll.2.Watched := by
  cases he : c.isEnded with
  | true =>
    rw [poll_of_ended hq he]
    exact Or.inr ⟨hq, he⟩
  | false =>
    rw [poll_of_waiting hq he]
    exact Or.inl rfl

theorem Watched.push (h : c.Watched) (he : c.isEnded = false) (a : α) : (c.push a).Watched := by
  rcases h with hr | ⟨-, ht⟩
  · exact Or.inl hr
  · rw [he] at ht
    exact absurd ht Bool.false_ne_true

theorem Watched.dropSender (h : c.Watched) : c.dropSender.Watched := by
  refine h.imp_right fun ⟨hq, he⟩ => ⟨hq, ?_⟩
  simp only [isEnded, Chan.dropSender, Bool.or_eq_true, beq_iff_eq] at he ⊢
  exact he.imp_left fun hs => by rw [hs]

/-- A sender that is there can be cloned. -/
theorem Watched.cloneSender (h : c.Watched) (hs : c.senders ≠ 0) : c.cloneSender.Watched := by
  refine h.imp_right fun ⟨hq, he⟩ => ⟨hq, ?_⟩
  simp only [isEnded, Chan.cloneSender, Bool.or_eq_true, beq_iff_eq, hs, false_or] at he ⊢
  exact Or.inr he

theorem Terminated.watched (h : c.Terminated) : c.Watched := Or.inr h

theorem terminated_dropReceiver (c : Chan α) : c.dropReceiver.Terminated :=
  ⟨rfl, Bool.or_true _⟩

end Chan

/-! ### Channels for one value -/

/-- **A channel for one value.** -/
structure Oneshot (α : Type u) where
  /-- The value sent and not received yet. -/
  value : Option α
  /-- The sender has neither sent nor been dropped. -/
  pending : Bool
  /-- The receiver is alive. -/
  receiver : Bool
  /-- The last poll of the receiver answered `notReady`. -/
  registered : Bool
  deriving DecidableEq, Repr

namespace Oneshot

variable {α : Type u} (o : Oneshot α) (a : α)

/-- A fresh channel for one value. -/
def new : Oneshot α where
  value := none
  pending := true
  receiver := true
  registered := false

/-- `send`, which consumes the sender. Without a receiver the value is lost. -/
def send : Oneshot α :=
  { o with value := if o.receiver then some a else none, pending := false }

/-- The sender is dropped without a value. -/
def dropSender : Oneshot α := { o with pending := false }

/-- The receiver is dropped. -/
def dropReceiver : Oneshot α := { o with receiver := false, value := none }

/-- `poll`, at the receiver; the error is `Canceled`. -/
def poll : Except Unit (Async α) × Oneshot α :=
  match o.value with
  | some a => (.ok (.ready a), { o with value := none, registered := false })
  | none =>
    if o.pending then (.ok .notReady, { o with registered := true })
    else (.error (), { o with registered := false })

/-- Nothing can be received any more. -/
def Terminated (o : Oneshot α) : Prop := o.value = none ∧ o.pending = false

/-- **The receiver is watched**, as that of a channel. -/
def Watched (o : Oneshot α) : Prop := o.registered = true ∨ o.Terminated

variable {o : Oneshot α} {a : α}

theorem watched_poll (hv : o.value = none) : o.poll.2.Watched := by
  rw [poll, hv]
  cases hp : o.pending with
  | true => exact Or.inl rfl
  | false => exact Or.inr ⟨rfl, rfl⟩

@[simp] theorem poll_pending : o.poll.2.pending = o.pending := by
  unfold poll
  split <;> [rfl; (split <;> rfl)]

@[simp] theorem poll_receiver : o.poll.2.receiver = o.receiver := by
  unfold poll
  split <;> [rfl; (split <;> rfl)]

/-- Without a sender there is nothing to wait for. -/
theorem poll_ne_notReady (hp : o.pending = false) : o.poll.1 ≠ .ok .notReady := by
  rw [poll]
  split
  · simp
  · simp [hp]

theorem Watched.send (h : o.Watched) (hp : o.pending = true) (a : α) : (o.send a).Watched := by
  rcases h with hr | ⟨-, hn⟩
  · exact Or.inl hr
  · rw [hp] at hn
    exact absurd hn.symm Bool.false_ne_true

theorem Watched.dropSender (h : o.Watched) : o.dropSender.Watched :=
  h.imp_right fun ⟨hv, _⟩ => ⟨hv, rfl⟩

theorem Watched.dropReceiver (h : o.Watched) : o.dropReceiver.Watched :=
  h.imp_right fun ⟨_, hp⟩ => ⟨rfl, hp⟩

end Oneshot

end Futures
