import PicoquicRs.Connections.StreamIds
import PicoquicRs.Streams.Halves

/-!
# The two ends of a stream agree on its halves

A stream has an end at each endpoint: one made for a create request, under an id of the
endpoint's own, and one made by the first callback for this id at the peer. What each of
them starts with is computed from the id and from the role, by different functions on
different machines. What one end is to send the other is to receive
(`PicoquicRs.Connections.halves_agree`), and neither end starts out finished.
-/

namespace PicoquicRs

namespace Streams

/-- What an end of a stream starts with, and what the endpoint is told about it. -/
structure Pair.Halves where
  /-- `Stream::get_type` -/
  type : Option SType
  /-- The application has a sender for the data to send, and the event loop a receiver. -/
  sendChannel : Bool × Bool
  /-- Nothing is to be sent. -/
  sendFinished : Bool
  /-- Nothing is to be received. -/
  recvFinished : Bool
  deriving DecidableEq, Repr

/-- The halves of a stream as they are. -/
def Pair.halves (p : Pair) : Pair.Halves where
  type := p.stream.map Stream.getType
  sendChannel := ((p.stream.map Stream.sendData).join.isSome, p.ctx.sendData.isSome)
  sendFinished := p.ctx.stopSendingOrFinSent
  recvFinished := p.ctx.finReceivedOrRecvMsgDropped

/-- **What a new stream starts with**: a half that is there is open. -/
theorem new_halves (id : Id) (isClientCon : Bool) : (new id isClientCon).halves =
    { type := some (if isUnidirectional id then .unidirectional else .bidirectional)
      sendChannel :=
        (decide (HasSendHalf id isClientCon), decide (HasSendHalf id isClientCon))
      sendFinished := !decide (HasSendHalf id isClientCon)
      recvFinished := !decide (HasRecvHalf id isClientCon) } := by
  simp only [Pair.halves, new_stream, new_sendData, new_stopSendingOrFinSent,
    new_finReceivedOrRecvMsgDropped, Option.map_some, Stream.getType]
  by_cases h : HasSendHalf id isClientCon <;> simp [h]

end Streams

namespace Connections

open Streams

/-- The initiator of a stream sends on it. -/
theorem hasSendHalf_generateStreamId (n : UInt64) (isClient isClient' : Bool) (stype : SType) :
    HasSendHalf (generateStreamId n isClient stype) isClient' ↔
      stype = .bidirectional ∨ isClient' = isClient := by
  rw [HasSendHalf, isUnidirectionalSendAllowed, isUnidirectional_generateStreamId,
    isClientInitiated_generateStreamId]
  cases isClient <;> cases isClient' <;> cases stype <;> decide

/-- The peer of the initiator receives on it. -/
theorem hasRecvHalf_generateStreamId (n : UInt64) (isClient isClient' : Bool) (stype : SType) :
    HasRecvHalf (generateStreamId n isClient stype) isClient' ↔
      stype = .bidirectional ∨ isClient' ≠ isClient := by
  rw [HasRecvHalf, isUnidirectionalSendAllowed, isUnidirectional_generateStreamId,
    isClientInitiated_generateStreamId]
  cases isClient <;> cases isClient' <;> cases stype <;> decide

/-- **The two endpoints agree on the halves of a stream.** The initiator makes it for a
create request, and the peer, in the other role, by a callback for its id. Both know the
type that was asked for. Both halves of a bidirectional stream are open at both ends; of a
unidirectional one the initiator has the half to send on, and the peer the other. Each
direction so has one sender and one receiver, and no end starts out finished. -/
theorem halves_agree (n : UInt64) (isClient : Bool) (stype : SType) :
    let id := generateStreamId n isClient stype
    let own := (Entry.new id isClient true).pair.halves
    let peer := (Entry.new id (!isClient) false).pair.halves
    own = { type := some stype
            sendChannel := (true, true)
            sendFinished := false
            recvFinished := stype == .unidirectional } ∧
    peer = { type := some stype
             sendChannel := (stype == .bidirectional, stype == .bidirectional)
             sendFinished := stype == .unidirectional
             recvFinished := false } ∧
    own.sendFinished = peer.recvFinished ∧ peer.sendFinished = own.recvFinished ∧
    (own.sendFinished && own.recvFinished) = false ∧
    (peer.sendFinished && peer.recvFinished) = false := by
  intro id own peer
  have hown : own = _ := new_halves id isClient
  have hpeer : peer = _ := new_halves id (!isClient)
  rw [hown, hpeer]
  simp only [id, hasSendHalf_generateStreamId, hasRecvHalf_generateStreamId,
    isUnidirectional_generateStreamId]
  cases isClient <;> cases stype <;> decide

end Connections

end PicoquicRs
