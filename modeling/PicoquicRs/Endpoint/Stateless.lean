import PicoquicRs.Endpoint.Loop

/-!
# The stateless packets

`send_stateless_packets` takes the packets picoquic has queued one after the other, hands
each to the socket, and drops it whatever the socket says. It stops at the first packet the
socket does not take.

So the packets are offered in the order of the queue, and each of them once
(`PicoquicRs.Endpoint.ContextInner.run_offers`). Nothing is lost exactly as long as the
socket has room (`PicoquicRs.Endpoint.ContextInner.stateless_packets_survive_iff`).
-/

namespace PicoquicRs

namespace Endpoint

namespace ContextInner

variable {c c' : ContextInner} {e : Event} {setup : Setup} {es : List Event}

/-- The stateless packets picoquic queues. -/
def statelessQueued (c : ContextInner) : Event → List Packet
  | .incomingPacketReturns bytes stateless =>
    if Event.possible (.incomingPacketReturns bytes stateless) c.phase then stateless else []
  | _ => []

/-- All stateless packets picoquic queued in a run, oldest first. -/
abbrev allStateless (setup : Setup) (es : List Event) : List Packet :=
  Trace.log step statelessQueued (new setup) es

/-- The packets that the socket did not refuse for want of room. -/
def notRefused (offers : List (Packet × SendAnswer)) : List Packet :=
  (offers.filter (·.2 != .notReady)).map Prod.fst

/-- **The stateless packets survive.** Of those that were `queued`, in this order, the first
ones were handed to the socket, once, and were not refused; the others are still in the queue.
A packet that is refused is the next one to be offered. -/
structure Survive (queued : List Packet) (c : ContextInner) : Prop where
  order : notRefused c.statelessOffers ++ c.stateless = queued
  next : ∀ before packet after, c.statelessOffers = before ++ (packet, .notReady) :: after →
    (after.map Prod.fst ++ c.stateless).head? = some packet

/-- **The socket has room** for the stateless packet it is handed. -/
def hasRoom (c : ContextInner) : Event → Bool
  | .stateless .notReady => c.phase != .stateless || c.stateless.isEmpty
  | _ => true

/-- **What a step offers.** What is offered comes from the front of the queue, and what
picoquic queues goes to its end. -/
theorem step_offers (h : c.step e = some c') :
    ∃ offers, c'.statelessOffers = c.statelessOffers ++ offers ∧
      offers.map Prod.fst ++ c'.stateless = c.stateless ++ c.statelessQueued e ∧
      ((∀ o ∈ offers, o.2 ≠ .notReady) ↔ c.hasRoom e = true) := by
  have hsame : c'.stateless = c.stateless → c'.statelessOffers = c.statelessOffers →
      c.statelessQueued e = [] → c.hasRoom e = true →
      ∃ offers, c'.statelessOffers = c.statelessOffers ++ offers ∧
        offers.map Prod.fst ++ c'.stateless = c.stateless ++ c.statelessQueued e ∧
        ((∀ o ∈ offers, o.2 ≠ .notReady) ↔ c.hasRoom e = true) := fun hs ho hq hr =>
    ⟨[], by rw [ho, List.append_nil], by rw [hs, hq, List.append_nil]; rfl, by simp [hr]⟩
  have haside : Aside c c' → c.statelessQueued e = [] → c.hasRoom e = true →
      ∃ offers, c'.statelessOffers = c.statelessOffers ++ offers ∧
        offers.map Prod.fst ++ c'.stateless = c.stateless ++ c.statelessQueued e ∧
        ((∀ o ∈ offers, o.2 ≠ .notReady) ↔ c.hasRoom e = true) := fun ha =>
    hsame ha.stateless ha.statelessOffers
  rw [step] at h
  split at h
  · rename_i hpos
    cases e with
    | poll =>
      obtain rfl := Option.some.inj h
      exact hsame rfl rfl rfl rfl
    | contexts =>
      obtain ⟨context, -, h⟩ := Option.bind_eq_some_iff.mp h
      obtain rfl := Option.some.inj h
      refine hsame ?_ ?_ rfl rfl <;> (split <;> rfl)
    | request created =>
      obtain ⟨context, requests, phase, rfl, -, -⟩ := checkForNewConnectionRequest_frame h
      exact hsame rfl rfl rfl rfl
    | receive r =>
      obtain rfl := Option.some.inj h
      cases r <;> exact hsame rfl rfl rfl rfl
    | incomingPacketReturns bytes stateless =>
      obtain rfl := Option.some.inj h
      have hqueued : c.statelessQueued (.incomingPacketReturns bytes stateless) = stateless :=
        if_pos hpos
      refine ⟨[], (List.append_nil _).symm ▸ ?_, ?_, by simp [hasRoom]⟩
      · rw [incomingPacketReturns]
        split <;> rfl
      · rw [hqueued]
        obtain ⟨len, hp⟩ := incomingPacket_of_possible hpos
        simp only [incomingPacketReturns, hp]
        rfl
    | stateless answer =>
      obtain rfl := Option.some.inj h
      have hphase : c.phase = .stateless := phase_of_possible hpos rfl
      rcases sendStatelessPackets_spec c answer with ⟨hnil, hc⟩ |
        ⟨packet, stateless, phase, hcons, hc, -⟩
      · refine hsame (by rw [hc]) (by rw [hc]) rfl ?_
        cases answer <;> first | rfl | simp [hasRoom, hnil]
      · refine ⟨[(packet, answer)], by rw [hc], ?_, ?_⟩
        · have hqueued : c.statelessQueued (.stateless answer) = [] := rfl
          rw [hc, hcons, hqueued, List.append_nil]
          rfl
        · cases answer <;> simp [hasRoom, hphase, hcons]
    | flush answer => exact haside (flushPending_aside h) rfl rfl
    | due d => exact haside (nextConnection_aside h) rfl rfl
    | packetPrepared bytes ret answer => exact haside (packetPrepared_aside h) rfl rfl
    | sleep nextWake =>
      obtain rfl := Option.some.inj h
      simp only [sleep] at hsame
      refine hsame ?_ ?_ rfl rfl <;> (split <;> [rfl; (split <;> rfl)])
    | quic e =>
      obtain ⟨context, -, h⟩ := Option.bind_eq_some_iff.mp h
      obtain rfl := Option.some.inj h
      exact hsame rfl rfl rfl rfl
    | application call =>
      by_cases hnew : ∃ addr serverName, call = .newConnection addr serverName
      · obtain ⟨addr, serverName, rfl⟩ := hnew
        obtain rfl := Option.some.inj h
        refine hsame ?_ ?_ rfl rfl <;> (split <;> rfl)
      · exact haside (stepApplication_aside h fun addr serverName hcall =>
          hnew ⟨addr, serverName, hcall⟩) rfl rfl
  · rename_i hpos
    obtain rfl := Option.some.inj h
    refine hsame rfl rfl ?_ ?_
    · cases e <;> first | rfl | exact if_neg hpos
    · cases e with
      | stateless answer =>
        cases answer <;> first | rfl | skip
        cases hp : c.phase <;> simp [Event.possible, hp, hasRoom] at hpos ⊢
      | _ => rfl

/-- **What a run offers**: the packets are handed to the socket in the order of the queue,
each of them once, and the socket is out of room for none of them exactly if it always has
room. -/
theorem run_offers (hrun : (new setup).run es = some c) :
    c.statelessOffers.map Prod.fst ++ c.stateless = allStateless setup es ∧
      ((∀ o ∈ c.statelessOffers, o.2 ≠ .notReady) ↔
        Trace.Obeys step (fun c e => c.hasRoom e = true) (new setup) es) := by
  refine Trace.run_records
    (R := fun es c => c.statelessOffers.map Prod.fst ++ c.stateless = allStateless setup es ∧
      ((∀ o ∈ c.statelessOffers, o.2 ≠ .notReady) ↔
        Trace.Obeys step (fun c e => c.hasRoom e = true) (new setup) es))
    ?_ ⟨rfl, fun _ => trivial, by simp [new]⟩ hrun
  rintro es e c c' hrun ⟨hqueue, hroom⟩ hstep
  obtain ⟨offers, hoffers, hfront, hnew⟩ := step_offers hstep
  constructor
  · rw [hoffers, List.map_append, List.append_assoc, hfront, ← List.append_assoc, hqueue,
      allStateless, allStateless, Trace.log_append hrun, Trace.log_singleton]
  · rw [Trace.obeys_append, ← hroom, hoffers]
    constructor
    · intro hall
      refine ⟨fun o ho => hall o (List.mem_append_left _ ho), fun c₁ hc₁ => ?_⟩
      obtain rfl := Option.some.inj (hrun.symm.trans hc₁)
      exact ⟨hnew.mp fun o ho => hall o (List.mem_append_right _ ho), fun _ _ => trivial⟩
    · rintro ⟨hold, hob⟩ o ho
      rcases List.mem_append.mp ho with ho | ho
      · exact hold o ho
      · exact hnew.mpr (hob c hrun).1 o ho

theorem notRefused_eq_iff {offers : List (Packet × SendAnswer)} :
    notRefused offers = offers.map Prod.fst ↔ ∀ o ∈ offers, o.2 ≠ .notReady := by
  constructor
  · intro h o ho
    have hlen := congrArg List.length h
    rw [notRefused, List.length_map, List.length_map, List.length_filter_eq_length_iff] at hlen
    simpa using hlen o ho
  · intro h
    rw [notRefused, List.filter_eq_self.mpr fun o ho => by simpa using h o ho]

/-- **The stateless packets of a run survive exactly if the socket has room for each of
them.** -/
theorem stateless_packets_survive_iff (hrun : (new setup).run es = some c) :
    c.Survive (allStateless setup es) ↔
      Trace.Obeys step (fun c e => c.hasRoom e = true) (new setup) es := by
  obtain ⟨hqueue, hroom⟩ := run_offers hrun
  rw [← hroom, ← notRefused_eq_iff]
  constructor
  · intro h
    have horder := h.order
    rw [← hqueue] at horder
    exact List.append_cancel_right horder
  · intro h
    refine ⟨by rw [h, hqueue], fun before packet after hoffers => ?_⟩
    have hmem : (packet, SendAnswer.notReady) ∈ c.statelessOffers := by
      rw [hoffers]
      exact List.mem_append_right _ List.mem_cons_self
    exact absurd rfl (notRefused_eq_iff.mp h _ hmem)

/-- Two packets are queued, and the socket takes them; an error counts as taken. -/
theorem stateless_packets_survive_iff_of_two :
    ∃ c, (new (.default 1536)).run [.poll, .contexts, .request true, .receive (.datagram [1]),
        .incomingPacketReturns [1] [⟨[7], ⟨.v4 1, 2⟩⟩, ⟨[8, 9], ⟨.v4 3, 4⟩⟩], .receive .notReady,
        .stateless .sent, .stateless .error] = some c ∧
      c.statelessOffers = [(⟨[7], ⟨.v4 1, 2⟩⟩, .sent), (⟨[8, 9], ⟨.v4 3, 4⟩⟩, .error)] ∧
      c.Survive [⟨[7], ⟨.v4 1, 2⟩⟩, ⟨[8, 9], ⟨.v4 3, 4⟩⟩] :=
  ⟨_, rfl, rfl, (@stateless_packets_survive_iff _ (.default 1536) [.poll, .contexts, .request true,
    .receive (.datagram [1]), .incomingPacketReturns [1] [⟨[7], ⟨.v4 1, 2⟩⟩, ⟨[8, 9], ⟨.v4 3, 4⟩⟩],
    .receive .notReady, .stateless .sent, .stateless .error] rfl).mpr (by decide)⟩

/-- **The socket is full, and a packet is lost**: it is neither in the queue, nor offered
again in the next call. -/
theorem refused_stateless_packet_is_lost :
    ∃ c, (new (.default 1536)).run [.poll, .contexts, .request true, .receive (.datagram [1]),
        .incomingPacketReturns [1] [⟨[7], ⟨.v4 1, 2⟩⟩, ⟨[8, 9], ⟨.v4 3, 4⟩⟩], .receive .notReady,
        .stateless .notReady, .flush .sent, .due .none, .sleep .none, .contexts, .request true,
        .receive .notReady, .stateless .sent] = some c ∧
      c.statelessOffers = [(⟨[7], ⟨.v4 1, 2⟩⟩, .notReady), (⟨[8, 9], ⟨.v4 3, 4⟩⟩, .sent)] ∧
      c.stateless = [] ∧ ¬ c.Survive [⟨[7], ⟨.v4 1, 2⟩⟩, ⟨[8, 9], ⟨.v4 3, 4⟩⟩] := by
  refine ⟨_, rfl, rfl, rfl, fun h => ?_⟩
  exact absurd h.order (by decide)

end ContextInner

end Endpoint

end PicoquicRs
