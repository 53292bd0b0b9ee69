import PicoquicRs.Streams.Pair

/-!
# The halves a stream starts with

Which halves a stream has is decided by two bits of its id and by the role of the
endpoint, at three places: where the channel for the data to send is made
(`PicoquicRs.Streams.createSendAndRecvData`), where the two flags of completion are set
(`PicoquicRs.Streams.Context.new`), and where the peer is asked to stop. All of them
follow `PicoquicRs.Streams.HasSendHalf` and `PicoquicRs.Streams.HasRecvHalf`.
-/

namespace PicoquicRs

namespace Streams

open Futures

variable {id : Id} {isClientCon : Bool}

theorem not_hasSendHalf : ¬ HasSendHalf id isClientCon ↔
    isUnidirectional id = true ∧ isUnidirectionalSendAllowed id isClientCon = false := by
  simp [HasSendHalf]

theorem not_hasRecvHalf : ¬ HasRecvHalf id isClientCon ↔
    isUnidirectional id = true ∧ isUnidirectionalSendAllowed id isClientCon = true := by
  simp [HasRecvHalf]

/-! ### A new stream -/

section

variable (id isClientCon)

/-- The application's end starts with a sender exactly if there is a half to send on. -/
theorem new_stream : (new id isClientCon).stream = some
    { sendData := if HasSendHalf id isClientCon then some 0 else none, id,
      streamReset := false } := by
  by_cases h : HasSendHalf id isClientCon
  · have hd : ¬ (isUnidirectional id && !isUnidirectionalSendAllowed id isClientCon) = true := by
      rcases h with h | h <;> simp [h]
    simp only [new, createSendAndRecvData, if_neg hd, if_pos h]
  · have hd : (isUnidirectional id && !isUnidirectionalSendAllowed id isClientCon) = true := by
      simp [not_hasSendHalf.mp h]
    simp only [new, createSendAndRecvData, if_pos hd, if_neg h]

/-- The event loop's end has the receiver for it. -/
theorem new_sendData : (new id isClientCon).ctx.sendData =
    if HasSendHalf id isClientCon then some (.new 0) else none := by
  have h := congrArg (Option.map Stream.sendData) (new_stream id isClientCon)
  have hs : (new id isClientCon).ctx.sendData =
      ((new id isClientCon).stream.map Stream.sendData).join.map SwappableStream.new := rfl
  rw [hs, h]
  split <;> rfl

/-- **The send half counts as finished from the start exactly if there is none.** -/
theorem new_stopSendingOrFinSent :
    (new id isClientCon).ctx.stopSendingOrFinSent = !decide (HasSendHalf id isClientCon) := by
  have hs : (new id isClientCon).ctx.stopSendingOrFinSent =
      (isUnidirectional id && !isUnidirectionalSendAllowed id isClientCon) := rfl
  rw [hs]
  by_cases h : HasSendHalf id isClientCon
  · rcases h with h | h <;> simp [HasSendHalf, h]
  · simp [HasSendHalf, not_hasSendHalf.mp h]

/-- **And so does the receive half.** -/
theorem new_finReceivedOrRecvMsgDropped :
    (new id isClientCon).ctx.finReceivedOrRecvMsgDropped =
      !decide (HasRecvHalf id isClientCon) := by
  have hs : (new id isClientCon).ctx.finReceivedOrRecvMsgDropped =
      (isUnidirectional id && isUnidirectionalSendAllowed id isClientCon) := rfl
  rw [hs]
  by_cases h : HasRecvHalf id isClientCon
  · rcases h with h | h <;> simp [HasRecvHalf, h]
  · simp [HasRecvHalf, not_hasRecvHalf.mp h]

/-- Nothing was fetched or sent yet, and picoquic was not called. -/
theorem new_activeBuffer : (new id isClientCon).ctx.activeBuffer = none := rfl

theorem new_calls : (new id isClientCon).ctx.calls = [] := rfl

end

end Streams

end PicoquicRs
