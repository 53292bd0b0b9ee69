import PicoquicRs.Endpoint.Loop
import PicoquicRs.Lib.Outbox

/-!
# The datagram that waits in the buffer

`send_data_in_buffer` leaves a datagram the socket has no room for in the buffer, and
remembers its length and its address. It is handed to the socket again before the next
packet is prepared. In between, the buffer may be used for the datagrams that come in.

As long as these leave the front of the buffer as it is, the buffer is a slot that is
filled by `prepare_packet` and emptied by the socket, as in `Outbox`
(`PicoquicRs.Endpoint.ContextInner.Kept`), and what the socket gets in the end is what
was prepared (`PicoquicRs.Endpoint.ContextInner.pending_packet_is_sent`).
-/

namespace PicoquicRs

namespace Endpoint

/-- A record as an action of a sender with one slot. -/
def Record.toAction : Record → Outbox.Action Packet
  | .prepared packet => .put packet
  | .offered packet answer => .offer packet (answer != .notReady)

namespace Record

variable {r : Record} {packet : Packet}

theorem toAction_refused : r.toAction = .offer packet false ↔ r = .offered packet .notReady := by
  cases r with
  | prepared p => simp [toAction]
  | offered p answer => cases answer <;> simp [toAction]

theorem toAction_taken :
    r.toAction = .offer packet true ↔
      ∃ answer, answer ≠ .notReady ∧ r = .offered packet answer := by
  cases r with
  | prepared p => simp [toAction]
  | offered p answer => cases answer <;> simp [toAction]

/-- Refused offers, as a record. -/
theorem map_toAction_refused {n : ℕ} {rs : List Record}
    (h : rs.map toAction = List.replicate n (.offer packet false)) :
    rs = List.replicate n (.offered packet .notReady) := by
  obtain ⟨hlen, hall⟩ := List.eq_replicate_iff.mp h
  rw [List.length_map] at hlen
  exact List.eq_replicate_iff.mpr
    ⟨hlen, fun r hr => toAction_refused.mp (hall _ (List.mem_map_of_mem hr))⟩

end Record

namespace ContextInner

variable {c c' : ContextInner}

/-- The datagram that waits in the buffer. -/
def pending (c : ContextInner) : Option Packet :=
  c.notSendLength.map fun (len, addr) => ⟨c.buffer.take len, addr⟩

theorem pending_of_none (h : c.notSendLength = none) : c.pending = none := by
  rw [pending, h, Option.map_none]

/-- **The buffer is a slot**, which is free where the next packet is prepared. -/
structure Kept (c : ContextInner) : Prop where
  follows : Outbox.run none (c.packets.map Record.toAction) = some c.pending
  free : c.phase = .connections ∨ c.phase = .preparePacket → c.notSendLength = none

/-- What an event writes to the front of the buffer before the next packet is
prepared. -/
def incomingBytes (c : ContextInner) : Event → Bytes
  | .receive (.datagram bytes) => bytes.take c.buffer.length
  | .incomingPacketReturns bytes _ =>
    match c.phase with
    | .incomingPacket len => bytes.take len
    | _ => []
  | _ => []

/-- **No datagram comes over a datagram that waits**, unless it does not change it. -/
def keepsPending (c : ContextInner) (e : Event) : Bool :=
  !e.possible c.phase ||
    c.notSendLength.all fun (len, _) => ((c.incomingBytes e).take len).isPrefixOf c.buffer

/-! ### The buffer -/

/-- What is written over the front of a buffer is not seen where it was there before. -/
theorem take_overwrite {α : Type*} {new old : List α} {n : ℕ} (h : new.take n <+: old) :
    (new ++ old.drop new.length).take n = old.take n := by
  rcases Nat.le_total n new.length with hle | hle
  · rw [List.take_append_of_le_length hle]
    have hlen : (new.take n).length = n := List.length_take_of_le hle
    exact (List.prefix_iff_eq_take.mp h).trans (by rw [hlen])
  · rw [List.take_of_length_le hle] at h
    obtain ⟨rest, rfl⟩ := h
    rw [List.drop_left]

/-- The datagram that waits is not touched. -/
theorem pending_writeBuffer {bytes : Bytes}
    (h : ∀ len addr, c.notSendLength = some (len, addr) → bytes.take len <+: c.buffer) :
    (c.writeBuffer bytes).pending = c.pending := by
  cases hn : c.notSendLength with
  | none => simp [pending, writeBuffer, hn]
  | some p =>
    obtain ⟨len, addr⟩ := p
    simp only [pending, writeBuffer, hn, Option.map_some]
    rw [take_overwrite (h len addr hn)]

namespace Kept

/-- Nothing happens to the buffer. -/
theorem unused (h : c.Kept) (hu : Unused c c')
    (hfree : c'.phase = .connections ∨ c'.phase = .preparePacket → c.notSendLength = none) :
    c'.Kept := by
  refine ⟨?_, fun hphase => hu.notSendLength.trans (hfree hphase)⟩
  rw [hu.packets, h.follows, pending, pending, hu.buffer, hu.notSendLength]

/-- **A packet is in the slot, and handed to the socket.** -/
theorem sendDataInBuffer {len : ℕ} {addr : SocketAddr} {answer : SendAnswer} {sent : Bool}
    (hfollows : Outbox.run none (c.packets.map Record.toAction) =
      some (some ⟨c.buffer.take len, addr⟩)) (hnone : c.notSendLength = none)
    (hs : c.sendDataInBuffer len addr answer = some (sent, c')) : (c'.proceed sent).Kept := by
  rw [ContextInner.sendDataInBuffer] at hs
  split at hs
  · have hsnoc := fun taken => Outbox.run_snoc hfollows (Outbox.step_offer taken)
    cases answer with
    | notReady =>
      obtain ⟨rfl, rfl⟩ := Prod.mk.inj (Option.some.inj hs)
      refine ⟨?_, by simp [proceed]⟩
      rw [proceed, List.map_append]
      exact hsnoc false
    | _ =>
      obtain ⟨rfl, rfl⟩ := Prod.mk.inj (Option.some.inj hs)
      refine ⟨?_, fun _ => hnone⟩
      rw [proceed, List.map_append]
      exact (hsnoc true).trans (congrArg some (pending_of_none hnone).symm)
  · simp at hs

/-- **What waited is handed to the socket first.** -/
theorem flushPending (h : c.Kept) {answer : SendAnswer} (hc : c.flushPending answer = some c') :
    c'.Kept := by
  rw [ContextInner.flushPending] at hc
  split at hc
  · rename_i len addr hn
    obtain ⟨⟨sent, c₁⟩, hs, hc⟩ := Option.bind_eq_some_iff.mp hc
    obtain rfl := Option.some.inj hc
    refine sendDataInBuffer (c := { c with notSendLength := none }) ?_ rfl hs
    rw [h.follows, pending, hn]
    rfl
  · rename_i hn
    obtain rfl := Option.some.inj hc
    exact h.unused ⟨rfl, rfl, rfl⟩ fun _ => hn

/-- **A packet is prepared where no other one waits.** -/
theorem packetPrepared (h : c.Kept) (hphase : c.phase = .preparePacket) {bytes : Bytes}
    {ret : Prepared} {answer : SendAnswer} (hc : c.packetPrepared bytes ret answer = some c') :
    c'.Kept := by
  have hnone := h.free (Or.inr hphase)
  have hfollows := h.follows
  rw [pending_of_none hnone] at hfollows
  rw [ContextInner.packetPrepared] at hc
  simp only at hc
  split at hc
  · obtain ⟨⟨sent, c₁⟩, hs, hc⟩ := Option.bind_eq_some_iff.mp hc
    obtain rfl := Option.some.inj hc
    refine sendDataInBuffer ?_ ?_ hs
    · rw [List.map_append]
      exact Outbox.run_snoc hfollows (Outbox.step_put _)
    · exact hnone
  · obtain rfl := Option.some.inj hc
    refine ⟨Eq.trans ?_ (congrArg some (pending_of_none ?_).symm), fun _ => hnone⟩
    · rw [List.map_append]
      exact Outbox.run_snoc hfollows (Outbox.step_put none)
    · exact hnone

/-- **The front of the buffer is written**, but not where a datagram waits. -/
theorem writeBuffer (h : c.Kept) {e : Event} (hpos : e.possible c.phase = true)
    (hk : c.keepsPending e = true) : (c.writeBuffer (c.incomingBytes e)).Kept := by
  refine ⟨?_, h.free⟩
  rw [pending_writeBuffer]
  · exact h.follows
  · intro len addr hn
    rw [keepsPending, hpos, hn] at hk
    exact List.isPrefixOf_iff_prefix.mp hk

/-- **Every step keeps the slot.** -/
theorem step (h : c.Kept) {e : Event} (hk : c.keepsPending e = true) (hc : c.step e = some c') :
    c'.Kept := by
  rw [ContextInner.step] at hc
  split at hc
  · rename_i hpos
    cases e with
    | poll =>
      obtain rfl := Option.some.inj hc
      exact h.unused ⟨rfl, rfl, rfl⟩ (by simp)
    | contexts =>
      obtain ⟨context, -, hc⟩ := Option.bind_eq_some_iff.mp hc
      obtain rfl := Option.some.inj hc
      split
      · exact h.unused ⟨rfl, rfl, rfl⟩ (by simp [drop])
      · exact h.unused ⟨rfl, rfl, rfl⟩ (by simp)
    | request created =>
      obtain ⟨hu, hphase, -⟩ := checkForNewConnectionRequest_spec hc
      exact h.unused hu (by rcases hphase with hp | hp <;> rw [hp]; exacts [h.free, by simp])
    | receive r =>
      obtain rfl := Option.some.inj hc
      cases r with
      | datagram bytes =>
        exact (h.writeBuffer hpos hk).unused ⟨rfl, rfl, rfl⟩ (by simp [checkForIncomingData])
      | _ => exact h.unused ⟨rfl, rfl, rfl⟩ (by simp [checkForIncomingData])
    | incomingPacketReturns bytes stateless =>
      obtain rfl := Option.some.inj hc
      have hw := h.writeBuffer hpos hk
      obtain ⟨len, hp⟩ := incomingPacket_of_possible hpos
      simp only [ContextInner.incomingPacketReturns, incomingBytes, hp] at hw ⊢
      exact hw.unused ⟨rfl, rfl, rfl⟩ (by simp)
    | stateless answer =>
      obtain rfl := Option.some.inj hc
      have hp : c.phase = .stateless := phase_of_possible hpos rfl
      rw [sendStatelessPackets]
      split
      · exact h.unused ⟨rfl, rfl, rfl⟩ (by simp)
      · cases answer <;> exact h.unused ⟨rfl, rfl, rfl⟩ (by simp [hp])
    | flush answer => exact h.flushPending hc
    | due d =>
      obtain ⟨hu, -⟩ := nextConnection_spec hc
      exact h.unused hu fun _ => h.free (Or.inl (phase_of_possible hpos rfl))
    | packetPrepared bytes ret answer => exact h.packetPrepared (phase_of_possible hpos rfl) hc
    | sleep nextWake =>
      obtain rfl := Option.some.inj hc
      rw [sleep]
      split
      · exact h.unused ⟨rfl, rfl, rfl⟩ (by simp)
      · split <;> exact h.unused ⟨rfl, rfl, rfl⟩ (by simp)
    | quic e =>
      obtain ⟨context, -, hc⟩ := Option.bind_eq_some_iff.mp hc
      obtain rfl := Option.some.inj hc
      exact h.unused ⟨rfl, rfl, rfl⟩ h.free
    | application call =>
      obtain ⟨hu, hphase, -⟩ := stepApplication_spec hc
      exact h.unused hu (hphase ▸ h.free)
  · obtain rfl := Option.some.inj hc
    exact h

end Kept

/-! ### Runs -/

/-- **What waits is sent as it was prepared.** In every run in which no datagram comes
over one that waits, a packet that was prepared is followed by the refused offers of
exactly this packet, with this address, and then by nothing yet, or by the offer of it
that was not refused. No other packet is prepared in between. -/
theorem pending_packet_is_sent {setup : Setup} {es : List Event} {c : ContextInner}
    {before after : List Record} {packet : Packet}
    (hkeep : Trace.Obeys step (fun c e => c.keepsPending e = true) (new setup) es)
    (hrun : (new setup).run es = some c)
    (hp : c.packets = before ++ .prepared (some packet) :: after) :
    ∃ n, after = List.replicate n (.offered packet .notReady) ∨
      ∃ answer rest, answer ≠ .notReady ∧
        after = List.replicate n (.offered packet .notReady) ++ .offered packet answer :: rest := by
  have hnew : (new setup).Kept := ⟨rfl, fun _ => rfl⟩
  have h := Trace.run_preserves (fun _ _ _ h hk hstep => Kept.step h hk hstep) hnew hkeep hrun
  have hfollows := h.follows
  rw [hp, List.map_append, List.map_cons] at hfollows
  obtain ⟨n, hafter | ⟨rest, hafter⟩⟩ := Outbox.run_after_put hfollows
  · exact ⟨n, Or.inl (Record.map_toAction_refused hafter)⟩
  · obtain ⟨refused, taken, rfl, hrefused, htaken⟩ := List.map_eq_append_iff.mp hafter
    obtain ⟨r, rest, rfl, hr, -⟩ := List.map_eq_cons_iff.mp htaken
    obtain ⟨answer, hne, rfl⟩ := Record.toAction_taken.mp hr
    exact ⟨n, Or.inr ⟨answer, rest, hne, by rw [Record.map_toAction_refused hrefused]⟩⟩

/-- A packet that is refused twice, and then sent. -/
theorem pending_packet_is_sent_after_two_refusals : ∃ c packet after,
    (new (.default 4)).run [.poll, .contexts, .request true, .receive .notReady, .stateless .sent,
      .flush .sent, .due (.refused false), .packetPrepared [1, 2, 3] (.ok 3 ⟨.v4 1, 2⟩) .notReady,
      .sleep .none, .contexts, .request true, .receive .notReady, .stateless .sent,
      .flush .notReady, .sleep .none, .contexts, .request true, .receive .notReady,
      .stateless .sent, .flush .sent] = some c ∧
    c.packets = .prepared (some packet) :: after ∧
    ∃ n, after = List.replicate n (.offered packet .notReady) ∨
      ∃ answer rest, answer ≠ .notReady ∧
        after = List.replicate n (.offered packet .notReady) ++ .offered packet answer :: rest :=
  ⟨_, _, _, rfl, rfl, @pending_packet_is_sent (.default 4)
    [.poll, .contexts, .request true, .receive .notReady, .stateless .sent,
      .flush .sent, .due (.refused false), .packetPrepared [1, 2, 3] (.ok 3 ⟨.v4 1, 2⟩) .notReady,
      .sleep .none, .contexts, .request true, .receive .notReady, .stateless .sent,
      .flush .notReady, .sleep .none, .contexts, .request true, .receive .notReady,
      .stateless .sent, .flush .sent] _ [] _ _ (by decide) rfl rfl⟩

/-- **A datagram comes over the one that waits**, and the socket gets the bytes of both. -/
theorem pending_packet_is_overwritten : ∃ c,
    (new (.default 4)).run [.poll, .contexts, .request true, .receive .notReady, .stateless .sent,
      .flush .sent, .due (.refused false), .packetPrepared [1, 2, 3] (.ok 3 ⟨.v4 1, 2⟩) .notReady,
      .sleep .none, .contexts, .request true, .receive (.datagram [9, 9]),
      .incomingPacketReturns [9, 9] [], .receive .notReady, .stateless .sent, .flush .sent] =
        some c ∧
    c.packets = [.prepared (some ⟨[1, 2, 3], ⟨.v4 1, 2⟩⟩),
      .offered ⟨[1, 2, 3], ⟨.v4 1, 2⟩⟩ .notReady, .offered ⟨[9, 9, 3], ⟨.v4 1, 2⟩⟩ .sent] :=
  ⟨_, rfl, rfl⟩

end ContextInner

end Endpoint

end PicoquicRs
