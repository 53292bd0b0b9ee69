import PicoquicRs.Lib.Futures

/-!
# Errors, and channels that carry one

The error type of the crate (`error.rs`) and the channel pair whose receiver can
leave an error behind for its senders (`channel_with_error.rs`): the two sides
share, beside the channel itself, a cell for an error. A sender looks at the cell
only once it finds the channel closed.
-/

namespace PicoquicRs

open Futures

/-- The bytes of one `Bytes` or `BytesMut` value. -/
abbrev Bytes := List UInt8

/-- `ErrorKind` -/
inductive ErrorKind where
  | networkError
  | ffiError
  | outOfMemoryError
  | disconnected
  | unknown
  | sendError (item : Bytes)
  | tlsHandshakeError
  | internalError
  | noneUnicode
  | openSSLError
  | custom (message : String)
  | io (message : String)
  | spawn (message : String)
  | sendOnUnidirectional
  deriving DecidableEq, Repr

/-- `Error`: the kind, without the backtrace. -/
structure Error where
  /-- The kind. -/
  kind : ErrorKind
  deriving DecidableEq, Repr

/-- `From<ErrorKind> for Error` -/
instance : Coe ErrorKind Error := ⟨Error.mk⟩

/-- `SendError`: why a sender failed – because of an error its receiver left, or
for no known reason. -/
inductive SendError (α : Type) where
  | channel (e : Error) (item : α)
  | normal (item : α)
  deriving DecidableEq, Repr

/-- **A channel with an error cell**, as `SenderWithError` and
`ReceiverWithError` see it together. -/
structure ErrorChan (α : Type) where
  /-- The channel. -/
  chan : Chan α
  /-- `error_state`. An error function always gives the same error, so the cell
  holds the error. -/
  errorState : Option Error
  deriving DecidableEq, Repr

namespace ErrorChan

variable {α : Type} (c : ErrorChan α)

/-- `channel` and `unbounded`: a fresh pair with an empty error cell. -/
def new : ErrorChan α where
  chan := Chan.new
  errorState := none

/-- `SenderWithError::check_for_error` -/
def checkForError : Option Error :=
  -- only a closed channel is asked for the error to propagate
  if c.chan.isOpen then none else c.errorState

/-- `SenderWithError::map_err` -/
def mapErr (item : α) : SendError α :=
  match c.checkForError with
  | some err => .channel err item
  | none => .normal item

/-- `<SenderWithError as Sink>::start_send` -/
def startSend (item : α) (room : Bool) : Except (SendError α) (AsyncSink α) × ErrorChan α :=
  match c.chan.startSend item room with
  | (.ok r, ch) => (.ok r, { c with chan := ch })
  | (.error item, ch) => (.error (c.mapErr item), { c with chan := ch })

/-- `ReceiverWithError::propagate_error` -/
def propagateError (err : Error) : ErrorChan α := { c with errorState := some err }

/-- `ReceiverWithError::close` -/
def close : ErrorChan α := { c with chan := c.chan.close }

/-- `<ReceiverWithError as Stream>::poll`, which never fails. -/
def poll : Async (Option α) × ErrorChan α :=
  match c.chan.poll with
  | (r, ch) => (r, { c with chan := ch })

/-- The receiver is dropped. -/
def dropReceiver : ErrorChan α := { c with chan := c.chan.dropReceiver }

/-- `<SenderWithError as Clone>::clone`: the clone shares the channel and the cell. -/
def cloneSender : ErrorChan α := { c with chan := c.chan.cloneSender }

/-- One sender is dropped. -/
def dropSender : ErrorChan α := { c with chan := c.chan.dropSender }

variable {c}

/-- **A send on a closed channel fails with the error its receiver left**, and
changes nothing. -/
theorem startSend_of_closed (item : α) (room : Bool) (h : c.chan.isOpen = false) :
    c.startSend item room = (.error (c.mapErr item), c) := by
  simp only [startSend, Chan.startSend, h, Bool.false_eq_true, if_false]

theorem mapErr_of_closed (item : α) (h : c.chan.isOpen = false) :
    c.mapErr item = c.errorState.elim (.normal item) fun err => .channel err item := by
  simp only [mapErr, checkForError, h, Bool.false_eq_true, if_false]
  cases c.errorState <;> rfl

theorem poll_of_cons {a : α} {q : List α} (h : c.chan.queue = a :: q) :
    c.poll = (.ready (some a), c.poll.2) := by
  rw [poll, Chan.poll_of_cons h]

/-- With no item left, the poll says whether one can still come. -/
theorem poll_of_nil (h : c.chan.queue = []) :
    c.poll = (.ready none, c.poll.2) ∨ c.poll = (.notReady, c.poll.2) := by
  cases he : c.chan.isEnded with
  | true =>
    rw [poll, Chan.poll_of_ended h he]
    exact Or.inl rfl
  | false =>
    rw [poll, Chan.poll_of_waiting h he]
    exact Or.inr rfl

@[simp] theorem poll_queue : c.poll.2.chan.queue = c.chan.queue.tail := Chan.poll_queue

@[simp] theorem poll_isOpen : c.poll.2.chan.isOpen = c.chan.isOpen := Chan.poll_isOpen

end ErrorChan

end PicoquicRs
