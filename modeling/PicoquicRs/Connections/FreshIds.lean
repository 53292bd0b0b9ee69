import PicoquicRs.Connections.Total

/-!
# The ids of one's own streams are fresh and well formed

The `k`-th stream an endpoint creates gets the id made from `k`. As long as there are fewer
than `2 ^ 62 - 1` requests, this number does not wrap, grows with `k` and tells the role of
the endpoint and the type that was asked for
(`PicoquicRs.Connections.stream_ids_are_fresh`).
-/

namespace PicoquicRs

namespace Connections

open Futures

/-- The number of a request survives the way through `u64`, also one further. -/
theorem generateStreamId_ofNat {k : ℕ} (hk : k < 2 ^ 62 - 1) (isClient : Bool) (stype : SType) :
    (generateStreamId (UInt64.ofNat k) isClient stype).toNat =
      4 * (k + 1) + idBits isClient stype := by
  have hto : (UInt64.ofNat k).toNat = k :=
    UInt64.toNat_ofNat_of_lt' (Nat.lt_of_lt_of_le hk (by decide))
  rw [generateStreamId_toNat, hto, Nat.mod_eq_of_lt (by omega)]

theorem idBits_lt (isClient : Bool) (stype : SType) : idBits isClient stype < 4 := by
  cases isClient <;> cases stype <;> decide

/-- **What an id made from the number `k` is like.** -/
structure WellFormed (k : ℕ) (isClient : Bool) (stype : SType) (id : Id) : Prop where
  /-- The number and the bits, without a wrap. -/
  toNat : id.toNat = 4 * (k + 1) + idBits isClient stype
  reserved : 4 ≤ id.toNat
  role : Streams.isClientInitiated id = isClient
  type : Streams.isUnidirectional id = (stype == .unidirectional)

theorem generateStreamId_wellFormed {k : ℕ} (hk : k < 2 ^ 62 - 1) (isClient : Bool)
    (stype : SType) : WellFormed k isClient stype (generateStreamId (UInt64.ofNat k) isClient stype)
    where
  toNat := generateStreamId_ofNat hk isClient stype
  reserved := by
    rw [generateStreamId_ofNat hk]
    omega
  role := isClientInitiated_generateStreamId _ _ _
  type := isUnidirectional_generateStreamId _ _ _

/-- **The ids of one's own streams are fresh and well formed.** In a run with fewer than
`2 ^ 62 - 1` create requests, in which a callback for a stream of one's own comes only after
it was created:

* the assertion that the map has no context for a fresh id does not fail – nothing panics,
  unless picoquic provides no buffer where it asks for data;
* the ids of the created streams are pairwise distinct, as they grow when divided by `4`;
* the `k`-th of them belongs to the `k`-th request, is made from `k` without a wrap, is at
  least `4`, and decodes to the role of the endpoint and to the type that was asked for. -/
theorem stream_ids_are_fresh {isClient : Bool} {es : List Event}
    (hown : Trace.Obeys Ends.step (fun p e => p.ownCreated e = true) (new isClient) es)
    (hfew : (Ends.requestsOf isClient es).length < 2 ^ 62 - 1) :
    ((∀ e ∈ es, ¬ e.isNull) → ∃ p, (new isClient).run es = some p) ∧
    ∀ p, (new isClient).run es = some p →
      p.ctx.requestedIds.Pairwise (fun id id' => id ≠ id' ∧ id.toNat / 4 < id'.toNat / 4) ∧
      ∀ k id, p.ctx.requestedIds[k]? = some id →
        ∃ stype, (Ends.requestsOf isClient es)[k]? = some stype ∧ WellFormed k isClient stype id := by
  refine ⟨fun hnull => Ends.run_total hown (by omega) hnull, fun p hrun => ?_⟩
  obtain ⟨done, left, hall, hn⟩ := (Ends.run_known hown hrun).numbered
  have hids : ∀ k id, p.ctx.requestedIds[k]? = some id →
      ∃ stype, (Ends.requestsOf isClient es)[k]? = some stype ∧ WellFormed k isClient stype id := by
    intro k id hk
    rw [hn.created, Context.idsOf, List.getElem?_mapIdx] at hk
    obtain ⟨stype, hstype, rfl⟩ := Option.map_eq_some_iff.mp hk
    have hlt := (List.getElem?_eq_some_iff.mp hstype).choose
    have hbound : k < 2 ^ 62 - 1 := by
      rw [← hall, List.length_append] at hfew
      omega
    refine ⟨stype, ?_, generateStreamId_wellFormed hbound _ _⟩
    rw [← hall, List.getElem?_append_left hlt, hstype]
  refine ⟨?_, hids⟩
  rw [List.pairwise_iff_getElem]
  intro i j hi hj hij
  obtain ⟨stype, -, hwf⟩ := hids i _ (List.getElem?_eq_getElem hi)
  obtain ⟨stype', -, hwf'⟩ := hids j _ (List.getElem?_eq_getElem hj)
  have hlt : p.ctx.requestedIds[i].toNat / 4 < p.ctx.requestedIds[j].toNat / 4 := by
    rw [hwf.toNat, hwf'.toNat]
    have h₁ := idBits_lt isClient stype
    have h₂ := idBits_lt isClient stype'
    omega
  exact ⟨fun heq => by simp [heq] at hlt, hlt⟩

/-- A client that is asked for streams of both types, before and after one of the peer, and
is called back for the connection, and for a stream whose context has left the map. -/
def lateCallbacks : List Event := [.callback .almostReady, .pollCreated,
  .callback (.stream 0 (.data [] .other)), .newStream .unidirectional,
  .newStream .bidirectional, .poll, .callback (.stream 5 (.data [1] .other)),
  .stream 0 (.startSend [7] true), .stream 0 .dropStream, .poll,
  .callback (.stream 6 (.prepareToSend (some Streams.zeroed) 10)), .poll,
  .callback (.stream 6 (.data [] .stopSending)), .newStream .unidirectional, .poll]

theorem stream_ids_are_fresh_of_late :
    ∃ p, (new true).run lateCallbacks = some p ∧ p.ctx.requestedIds = [6, 8, 14] ∧
      p.ctx.requestedIds.Pairwise (fun id id' => id ≠ id' ∧ id.toNat / 4 < id'.toNat / 4) := by
  have hown : Trace.Obeys Ends.step (fun p e => p.ownCreated e = true) (new true)
      lateCallbacks := by decide
  obtain ⟨htotal, hall⟩ := @stream_ids_are_fresh true lateCallbacks hown (by decide)
  obtain ⟨p, hrun⟩ := htotal (by simp [lateCallbacks, Event.isNull, Streams.Callback.isNull])
  have hids : ((new true).run lateCallbacks).map (fun p => p.ctx.requestedIds) =
      some [6, 8, 14] := by decide
  rw [hrun] at hids
  exact ⟨p, hrun, Option.some.inj hids, (hall p hrun).1⟩

end Connections

end PicoquicRs
