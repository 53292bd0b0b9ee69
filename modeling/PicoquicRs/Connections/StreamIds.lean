import Mathlib.Algebra.Group.Nat.Defs
import Mathlib.Data.List.Nodup
import Mathlib.Data.Nat.Bitwise
import PicoquicRs.Connections.Steps
import PicoquicRs.Streams.Effects

/-!
# One stream for each id

A context that is not in the map is the only sign that an id is new, but a context
leaves the map once both halves look finished, and picoquic may still call back for
the id. Where it does not, no id is used twice
(`PicoquicRs.Connections.one_stream_per_id`): the ids of the peer are told apart by the
map, and the own ones by the counter they are made from
(`PicoquicRs.Connections.generateStreamId_injective`).
-/

namespace PicoquicRs

namespace Connections

open Futures

/-! ### The ids the counter makes -/

/-- What the role and the type put into the two low bits of an id. -/
def idBits (isClient : Bool) (stype : SType) : ℕ :=
  (!isClient).toNat + 2 * (stype == .unidirectional).toNat

/-- **The id of the request number `n`.** It wraps with the number `2 ^ 62 - 1`. -/
theorem generateStreamId_toNat (n : UInt64) (isClient : Bool) (stype : SType) :
    (generateStreamId n isClient stype).toNat =
      4 * ((n.toNat + 1) % 2 ^ 62) + idBits isClient stype := by
  have hshift : ((n + 1) <<< 2).toNat = ((n.toNat + 1) % 2 ^ 62) <<< 2 := by
    rw [UInt64.toNat_shiftLeft, UInt64.toNat_add, Nat.shiftLeft_eq, Nat.shiftLeft_eq]
    simp
    omega
  -- the low bits of a shifted number are free
  have hor : ∀ a, a < 4 →
      ((n.toNat + 1) % 2 ^ 62) <<< 2 ||| a = 4 * ((n.toNat + 1) % 2 ^ 62) + a := by
    intro a ha
    rw [← Nat.shiftLeft_add_eq_or_of_lt (i := 2) ha, Nat.shiftLeft_eq]
    omega
  cases isClient <;> cases stype <;>
    simp only [generateStreamId, Bool.not_true, Bool.not_false, if_true, Bool.false_eq_true,
      if_false, UInt64.toNat_or, hshift]
  · exact (Nat.or_assoc _ 1 2).trans (hor 3 (by decide))
  · exact hor 1 (by decide)
  · exact hor 2 (by decide)
  · exact (Nat.or_zero _).symm.trans (hor 0 (by decide))

theorem isClientInitiated_eq (id : Id) :
    Streams.isClientInitiated id = decide (id.toNat % 2 = 0) := by
  rw [Streams.isClientInitiated, ← Nat.and_one_is_mod, Bool.eq_iff_iff, beq_iff_eq,
    decide_eq_true_eq, ← UInt64.toNat_inj, UInt64.toNat_and]
  rfl

theorem isUnidirectional_eq (id : Id) :
    Streams.isUnidirectional id = decide (id.toNat / 2 % 2 = 1) := by
  have hand : (id &&& 2).toNat = 2 * (id.toNat.testBit 1).toNat := by
    rw [UInt64.toNat_and, Nat.land_comm]
    exact Nat.two_pow_and id.toNat 1
  have hbit : id.toNat.testBit 1 = decide (id.toNat / 2 % 2 = 1) := Nat.testBit_eq_decide_div_mod_eq
  rw [Streams.isUnidirectional, Bool.eq_iff_iff, bne_iff_ne, ne_eq, ← UInt64.toNat_inj, hand,
    ← hbit]
  cases id.toNat.testBit 1 <;> decide

/-- An id the counter makes tells the type that was asked for. -/
theorem isUnidirectional_generateStreamId (n : UInt64) (isClient : Bool) (stype : SType) :
    Streams.isUnidirectional (generateStreamId n isClient stype) = (stype == .unidirectional) := by
  have hbits : ∀ a b, b < 4 → (4 * a + b) / 2 % 2 = b / 2 := by omega
  rw [isUnidirectional_eq, generateStreamId_toNat, idBits, hbits]
  · cases isClient <;> cases stype <;> decide
  · cases isClient <;> cases stype <;> decide

/-- An id the counter makes is one of the endpoint's own. -/
theorem isClientInitiated_generateStreamId (n : UInt64) (isClient : Bool) (stype : SType) :
    Streams.isClientInitiated (generateStreamId n isClient stype) = isClient := by
  rw [isClientInitiated_eq, generateStreamId_toNat, idBits]
  cases isClient <;> cases stype <;> simp <;> omega

/-- **Two requests get different ids**, whatever their types, as long as the counter does
not come round. -/
theorem generateStreamId_injective {n m : UInt64} {isClient : Bool} {stype stype' : SType}
    (hn : n.toNat < 2 ^ 62) (hm : m.toNat < 2 ^ 62)
    (h : generateStreamId n isClient stype = generateStreamId m isClient stype') : n = m := by
  have h' := congrArg UInt64.toNat h
  rw [generateStreamId_toNat, generateStreamId_toNat] at h'
  have hb : ∀ stype, idBits isClient stype < 4 := by
    intro stype
    cases isClient <;> cases stype <;> decide
  have h₁ := hb stype
  have h₂ := hb stype'
  rw [← UInt64.toNat_inj]
  omega

/-! ### The invariant -/

namespace Context

variable {c c' : Context}

/-- The ids of the streams, in the order of creation. -/
def ids (c : Context) : List Id := c.streams.map Entry.id

/-- **The streams are told apart by their ids**, and the own ones come from the counter. -/
structure Apart (c : Context) : Prop where
  nodup : c.ids.Nodup
  own : ∀ id ∈ c.ids, Streams.isClientInitiated id = c.isClient →
    ∃ n stype, n < c.nextStreamId ∧ id = generateStreamId n c.isClient stype

namespace Apart

theorem same (h : c.Apart) (hs : Same c c') : c'.Apart := by
  have hids : c'.ids = c.ids := hs.streams.map_id
  refine ⟨hids ▸ h.nodup, ?_⟩
  rw [hids, hs.isClient, hs.nextStreamId]
  exact h.own

/-- A stream of the peer is added, under a new id. -/
theorem insertStream (h : c.Apart) {id : Id} (hnew : id ∉ c.ids)
    (hpeer : Streams.isClientInitiated id ≠ c.isClient) : (c.insertStream id false).Apart := by
  have hids : (c.insertStream id false).ids = c.ids ++ [id] := List.map_append
  refine ⟨?_, fun x hx hown => ?_⟩
  · rw [hids]
    exact List.nodup_append.mpr ⟨h.nodup, by simp,
      by rintro x hx y hy rfl; simp at hy; exact hnew (hy ▸ hx)⟩
  · rw [hids, List.mem_append, List.mem_singleton] at hx
    rcases hx with hx | rfl
    · exact h.own x hx hown
    · exact absurd hown hpeer

/-- **A stream of one's own is added**, under the next id. -/
theorem createStream (h : c.Apart) (hlt : c.nextStreamId.toNat < 2 ^ 62) (stype : SType) :
    (c.createStream stype).Apart := by
  have hids : (c.createStream stype).ids =
      c.ids ++ [generateStreamId c.nextStreamId c.isClient stype] := List.map_append
  have hnext : (c.nextStreamId + 1).toNat = c.nextStreamId.toNat + 1 := by
    rw [UInt64.toNat_add]
    simp
    omega
  have hlater : ∀ n : UInt64, n < c.nextStreamId → n < c.nextStreamId + 1 := fun n hn => by
    rw [UInt64.lt_iff_toNat_lt] at hn ⊢
    omega
  refine ⟨?_, fun x hx hown => ?_⟩
  · rw [hids]
    refine List.nodup_append.mpr ⟨h.nodup, by simp, fun x hx y hy heq => ?_⟩
    obtain rfl := List.mem_singleton.mp hy
    -- it would be made from an earlier number
    obtain ⟨n, stype', hn, hid⟩ := h.own x hx (by rw [heq, isClientInitiated_generateStreamId])
    rw [UInt64.lt_iff_toNat_lt] at hn
    obtain rfl := generateStreamId_injective (Nat.lt_trans hn hlt) hlt (hid.symm.trans heq)
    exact absurd hn (Nat.lt_irrefl _)
  · rw [hids, List.mem_append, List.mem_singleton] at hx
    rcases hx with hx | rfl
    · obtain ⟨n, stype', hn, hid⟩ := h.own x hx hown
      exact ⟨n, stype', hlater n hn, hid⟩
    · refine ⟨c.nextStreamId, stype, ?_, rfl⟩
      change c.nextStreamId < c.nextStreamId + 1
      rw [UInt64.lt_iff_toNat_lt]
      omega

/-- The create requests are answered, and there are ids for all of them. -/
theorem checkCreateStreamRequests (h : c.Apart)
    (hleft : c.nextStreamId.toNat + c.recvCreateStream.chan.queue.length ≤ 2 ^ 62)
    (hc : c.checkCreateStreamRequests = some c') : c'.Apart := by
  refine (createStream_rule (P := fun c => c.Apart ∧
    c.nextStreamId.toNat + c.recvCreateStream.chan.queue.length ≤ 2 ^ 62) ?_ ?_ ⟨h, hleft⟩ hc).1
  · rintro c c' ⟨h, hleft⟩ hs hq
    refine ⟨h.same hs, ?_⟩
    rw [hs.nextStreamId]
    omega
  · rintro c stype ⟨h, hleft⟩ hq -
    have hlen := List.length_pos_iff.mpr hq
    refine ⟨h.createStream (by omega) stype, ?_⟩
    change (c.nextStreamId + 1).toNat + c.recvCreateStream.chan.poll.2.queue.length ≤ 2 ^ 62
    rw [Chan.poll_queue, List.length_tail, UInt64.toNat_add]
    simp
    omega

end Apart

end Context

/-! ### Runs -/

namespace Ends

variable {p p' : Ends}

/-- **What picoquic keeps to.** It calls back for an own id only after a stream of this id
was created, and it asks for data only while the stream is marked active. The id `0`
stands for the connection. -/
def picoquicRules (p : Ends) : Event → Bool
  | .callback (.stream id cb) =>
    id == 0 ||
      (Streams.isClientInitiated id != p.ctx.isClient || p.ctx.streams.any (·.id == id)) &&
        match cb with
        | .prepareToSend .. =>
          p.ctx.streams.any fun en => en.id == id && en.pair.ctx.activeInPicoquic
        | .data .. => true
  | _ => true

/-- **No callback comes too late**, that is for an id whose context left the map. -/
def inTime (p : Ends) : Event → Bool
  | .callback (.stream id _) => p.ctx.streams.all fun en => en.id != id || en.pair.alive
  | _ => true

/-- There are ids for the requests that are going to be answered. -/
def idsLeft (p : Ends) : Event → Bool
  | .poll => decide (p.ctx.nextStreamId.toNat + p.ctx.recvCreateStream.chan.queue.length ≤ 2 ^ 62)
  | _ => true

/-- **Every step keeps the streams apart.** -/
theorem apart_step (h : p.ctx.Apart) {e : Event}
    (hok : p.picoquicRules e = true ∧ p.inTime e = true ∧ p.idsLeft e = true)
    (hstep : p.step e = some p') : p'.ctx.Apart := by
  obtain ⟨hrules, htime, hleft⟩ := hok
  refine step_rule (P := Context.Apart) (fun _ _ h hs => h.same hs) h ?_ ?_ hstep
  · rintro id cb rfl hid hctx
    -- a stream of this id would have a context
    have hnew : id ∉ p.ctx.ids := by
      intro hmem
      obtain ⟨en, hen, rfl⟩ := List.mem_map.mp hmem
      have halive := List.all_eq_true.mp htime en hen
      have hnone := List.any_eq_false.mp hctx en hen
      simp_all
    refine h.insertStream hnew fun hown => hnew ?_
    simp only [picoquicRules, hown, bne_self_eq_false, Bool.false_or, Bool.or_eq_true,
      beq_iff_eq, Bool.and_eq_true] at hrules
    obtain ⟨en, hen, heq⟩ := List.any_eq_true.mp (hrules.resolve_left hid).1
    exact List.mem_map.mpr ⟨en, hen, by simpa using heq⟩
  · rintro rfl c₁ c₂ h₁ hrecv hnext hc
    exact h₁.checkCreateStreamRequests (by rw [hrecv, hnext]; simpa [idsLeft] using hleft) hc

end Ends

/-- **One stream for each id.** In every run of a connection in which no callback comes
for an id whose context left the map, each id gives rise to one stream at most. A stream
that is announced as new never has an id that was created at the application's request. -/
theorem one_stream_per_id {isClient : Bool} {es : List Event} {p : Ends}
    (hrules : Trace.Obeys Ends.step (fun p e => p.picoquicRules e) (new isClient) es)
    (htime : Trace.Obeys Ends.step (fun p e => p.inTime e) (new isClient) es)
    (hleft : Trace.Obeys Ends.step (fun p e => p.idsLeft e) (new isClient) es)
    (hrun : (new isClient).run es = some p) :
    (p.ctx.streams.map Entry.id).Nodup ∧
      ∀ en ∈ p.ctx.streams, ∀ en' ∈ p.ctx.streams, en.requested = false → en'.requested = true →
        en.id ≠ en'.id := by
  have hnew : (new isClient).ctx.Apart :=
    ⟨by simp [new, Context.new, Context.ids], by simp [new, Context.new, Context.ids]⟩
  have h := Trace.run_preserves (P := fun p : Ends => p.ctx.Apart)
    (fun _ _ _ h hok hstep => Ends.apart_step h hok hstep) hnew
    (Trace.obeys_and.mpr ⟨hrules, Trace.obeys_and.mpr ⟨htime, hleft⟩⟩) hrun
  refine ⟨h.nodup, fun en hen en' hen' hr hr' heq => ?_⟩
  obtain rfl := List.inj_on_of_nodup_map h.nodup hen hen' heq
  simp [hr] at hr'

/-- A server that opens a stream, and is opened one by the peer. -/
theorem one_stream_per_id_of_two : ∃ p,
    (new false).run [.newStream .bidirectional, .poll,
      .callback (.stream 4 (.data [1] .other)), .callback (.stream 4 (.data [2] .streamFin))] =
        some p ∧
    (p.ctx.streams.map Entry.id).Nodup ∧
      ∀ en ∈ p.ctx.streams, ∀ en' ∈ p.ctx.streams, en.requested = false → en'.requested = true →
        en.id ≠ en'.id :=
  ⟨_, rfl, @one_stream_per_id false
    [.newStream .bidirectional, .poll, .callback (.stream 4 (.data [1] .other)),
      .callback (.stream 4 (.data [2] .streamFin))] _ (by decide) (by decide) (by decide) rfl⟩

/-- **Two streams for one id.** The peer has finished its direction, the answer and its FIN
are out, and the context is dropped. The peer then stops a stream that is not known any
more, and the application is handed a second `Stream` with the id `4`. -/
theorem two_streams_for_one_id : ∃ es p, (new false).run es = some p ∧
    Trace.Obeys Ends.step (fun p e => p.picoquicRules e) (new false) es ∧
    Trace.Obeys Ends.step (fun p e => p.idsLeft e) (new false) es ∧
    p.ctx.streams.map Entry.id = [4, 4] :=
  ⟨[.callback (.stream 4 (.data [1] .streamFin)), .stream 0 (.startSend [7] true),
      .stream 0 .dropStream, .poll,
      .callback (.stream 4 (.prepareToSend (some Streams.zeroed) 10)), .poll,
      .callback (.stream 4 (.data [] .stopSending))],
    _, rfl, by decide, by decide, rfl⟩

end Connections

end PicoquicRs
