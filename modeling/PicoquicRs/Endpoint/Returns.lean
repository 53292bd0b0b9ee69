import PicoquicRs.Endpoint.Loop
import Mathlib.Data.Prod.Lex

/-!
# Does a call of the event loop return?

`ContextInner::poll` has a loop in its loop: `send_connection_packets` goes through the
connections that are due. The outer loop counts its rounds and gives up after `50` of them;
the inner one goes on for as long as picoquic has a connection that is due, and the socket has
room.

A call is driven by the answers it gets (`PicoquicRs.Endpoint.ContextInner.states`). All
loops but the inner one of `send_connection_packets` end by themselves, as a rank shows
(`PicoquicRs.Endpoint.ContextInner.answer_rank`), so a call returns exactly if the answers
end this one (`PicoquicRs.Endpoint.ContextInner.poll_returns_iff`).
-/

namespace PicoquicRs

namespace Endpoint

open Futures

/-- **What a round of the loop meets**: what the application and picoquic do meanwhile, and
the answers to what the loop may ask. -/
structure Answers where
  calls : List ContextInner.Call
  /-- What picoquic does, where the loop has called it. -/
  quic : List ContextInner.QuicEvent
  /-- Picoquic makes the connection that is asked for. -/
  created : Bool
  received : Received
  /-- What picoquic writes to the buffer. -/
  bytes : Bytes
  /-- The stateless packets picoquic queues. -/
  stateless : List Packet
  sent : SendAnswer
  due : Due
  prepared : Prepared
  nextWake : NextWake

/-- The event that happens next, unless the call has returned. -/
def Answers.event (a : Answers) : Phase → Option ContextInner.Event
  | .contexts => some .contexts
  | .requests => some (.request a.created)
  | .incoming => some (.receive a.received)
  | .incomingPacket _ => some (.incomingPacketReturns a.bytes a.stateless)
  | .stateless => some (.stateless a.sent)
  | .flush => some (.flush a.sent)
  | .connections => some (.due a.due)
  | .preparePacket => some (.packetPrepared a.bytes a.prepared a.sent)
  | .wake => some (.sleep a.nextWake)
  | .idle | .ended => none

/-- How far it is to the bottom of the loop. -/
def Phase.rank : Phase → ℕ
  | .contexts => 8
  | .requests => 7
  | .incomingPacket _ => 6
  | .incoming => 5
  | .stateless => 4
  | .flush => 3
  | .connections | .preparePacket => 2
  | .wake => 1
  | .idle | .ended => 0

namespace ContextInner

variable {c c' : ContextInner} {a : Answers} {answers : ℕ → Answers} {n : ℕ}

/-- What happens before the loop gets its answer. -/
def meanwhile (c : ContextInner) (a : Answers) : Option ContextInner :=
  c.run (a.calls.map .application ++ a.quic.map .quic)

/-- The loop gets its answer. -/
def answer (c : ContextInner) (a : Answers) : Option ContextInner :=
  match a.event c.phase with
  | some e => c.step e
  | none => some c

/-- **A call of `poll`**, round by round, from where it begins. -/
def states (c : ContextInner) (answers : ℕ → Answers) : ℕ → Option ContextInner
  | 0 => c.step .poll
  | n + 1 => do
    let c' ← c.states answers n
    let c' ← c'.meanwhile (answers n)
    c'.answer (answers n)

/-- The call has returned. -/
def Returned (c : ContextInner) : Prop := c.phase = .idle ∨ c.phase = .ended

/-- How often `prepare_packet` was called. -/
def preparations (c : ContextInner) : ℕ := c.packets.countP fun
  | .prepared _ => true
  | .offered _ _ => false

/-- **The call returns**, after a number of rounds, each of which calls `prepare_packet` once
at most. -/
def Returns (c : ContextInner) (answers : ℕ → Answers) : Prop :=
  ∃ n c', c.states answers n = some c' ∧ c'.Returned ∧ c'.preparations ≤ c.preparations + n

/-- **A round panics** before the call has returned. -/
def Panics (c : ContextInner) (answers : ℕ → Answers) : Prop :=
  ∃ n, c.states answers n = none ∧
    ∀ m, m < n → ∀ c', c.states answers m = some c' → ¬ c'.Returned

/-- **The loop of `send_connection_packets` goes on**: there is a connection that is due, and
not disconnected; or no packet was prepared, or the socket has room for it. -/
def goesOn (c : ContextInner) (a : Answers) : Bool :=
  match c.phase with
  | .connections => !c.endsConnections a.due
  | .preparePacket => a.prepared.packet.isNone || a.sent != .notReady
  | _ => false

/-- In this round it does. -/
def GoesOn (c : ContextInner) (answers : ℕ → Answers) (n : ℕ) : Prop :=
  ∃ c₁ c₂, c.states answers n = some c₁ ∧ c₁.meanwhile (answers n) = some c₂ ∧
    c₂.goesOn (answers n) = true

/-! ### A rank -/

/-- **The rank of a state**: the rounds of the loop that are left, then how far it is to the
bottom of the loop, then what is left in the queues. -/
def rank (c : ContextInner) : ℕ ×ₗ ℕ ×ₗ ℕ :=
  toLex (maxLoopsWithoutSleep - c.loopsWithoutSleep,
    toLex (c.phase.rank, c.recvConnect.queue.length + c.stateless.length))

theorem rank_lt_of_phase {p q : Phase} (hp : c.phase = p) (hq : c'.phase = q)
    (hl : c'.loopsWithoutSleep = c.loopsWithoutSleep) (hlt : q.rank < p.rank) :
    c'.rank < c.rank := by
  rw [rank, rank, hl, hp, hq, Prod.Lex.toLex_lt_toLex]
  refine Or.inr ⟨rfl, ?_⟩
  rw [Prod.Lex.toLex_lt_toLex]
  exact Or.inl hlt

theorem rank_lt_of_queues (hl : c'.loopsWithoutSleep = c.loopsWithoutSleep)
    (hp : c'.phase = c.phase)
    (hq : c'.recvConnect.queue.length + c'.stateless.length <
      c.recvConnect.queue.length + c.stateless.length) : c'.rank < c.rank := by
  rw [rank, rank, hl, hp, Prod.Lex.toLex_lt_toLex]
  refine Or.inr ⟨rfl, ?_⟩
  rw [Prod.Lex.toLex_lt_toLex]
  exact Or.inr ⟨rfl, hq⟩

theorem rank_eq (ha : Aside c c') (hp : c'.phase.rank = c.phase.rank) : c'.rank = c.rank := by
  rw [rank, rank, ha.loops, hp, ha.queue, ha.stateless]

/-! ### What an answer does -/

/-- Until the answer, the application calls and picoquic calls back. -/
theorem mem_meanwhile {e : Event}
    (he : e ∈ a.calls.map Event.application ++ a.quic.map Event.quic) :
    (∃ call ∈ a.calls, e = .application call) ∨ ∃ q, e = .quic q := by
  rcases List.mem_append.mp he with he | he
  · obtain ⟨call, hcall, rfl⟩ := List.mem_map.mp he
    exact Or.inl ⟨call, hcall, rfl⟩
  · obtain ⟨q, -, rfl⟩ := List.mem_map.mp he
    exact Or.inr ⟨q, rfl⟩

/-- Until the answer, the loop stays where it is. -/
theorem meanwhile_phase (h : c.meanwhile a = some c') :
    c'.phase = c.phase ∧ c'.packets = c.packets := by
  refine Trace.run_keeps (P := fun c' => c'.phase = c.phase ∧ c'.packets = c.packets)
    ?_ ⟨rfl, rfl⟩ h
  rintro c₁ e he c₂ ⟨hphase, hpackets⟩ hstep
  rcases mem_meanwhile he with ⟨call, -, rfl⟩ | ⟨q, rfl⟩
  · rw [step, if_pos (by rfl)] at hstep
    obtain ⟨hu, hp, -⟩ := stepApplication_spec hstep
    exact ⟨hp.trans hphase, hu.packets.trans hpackets⟩
  · rw [step] at hstep
    split at hstep
    · obtain ⟨context, -, hstep⟩ := Option.bind_eq_some_iff.mp hstep
      obtain rfl := Option.some.inj hstep
      exact ⟨hphase, hpackets⟩
    · obtain rfl := Option.some.inj hstep
      exact ⟨hphase, hpackets⟩

/-- Without a new request the queues stay as they are. -/
theorem meanwhile_aside (h : c.meanwhile a = some c')
    (hno : ∀ addr serverName, Call.newConnection addr serverName ∉ a.calls) : Aside c c' := by
  refine Trace.run_keeps (P := Aside c) ?_ (.refl c) h
  rintro c₁ e he c₂ haside hstep
  rcases mem_meanwhile he with ⟨call, hcall, rfl⟩ | ⟨q, rfl⟩
  · rw [step, if_pos (by rfl)] at hstep
    refine haside.trans (stepApplication_aside hstep ?_)
    rintro addr serverName rfl
    exact hno addr serverName hcall
  · rw [step] at hstep
    split at hstep
    · obtain ⟨context, -, hstep⟩ := Option.bind_eq_some_iff.mp hstep
      obtain rfl := Option.some.inj hstep
      exact haside.trans ⟨rfl, rfl, rfl, rfl, rfl, rfl⟩
    · obtain rfl := Option.some.inj hstep
      exact haside

/-- **A round takes a request off the queue**, or there is none. -/
theorem checkForNewConnectionRequest_queue {created : Bool}
    (h : c.checkForNewConnectionRequest created = some c') :
    c'.loopsWithoutSleep = c.loopsWithoutSleep ∧
      ((∃ r, c.recvConnect.queue = r :: c'.recvConnect.queue ∧ c'.phase = c.phase ∧
        c'.stateless = c.stateless) ∨ c'.phase = .incoming) := by
  cases hq : c.recvConnect.queue with
  | cons r q =>
    obtain ⟨hqueue, hphase, hstateless, hloops⟩ := checkForNewConnectionRequest_takes hq h
    exact ⟨hloops, Or.inl ⟨r, by rw [hqueue], hphase, hstateless⟩⟩
  | nil =>
    rw [checkForNewConnectionRequest_nil hq] at h
    obtain rfl := Option.some.inj h
    exact ⟨rfl, Or.inr rfl⟩

theorem answer_eq {e : Event} (he : a.event c.phase = some e) (hpos : e.possible c.phase = true) :
    c.answer a = c.take e := by
  rw [answer, he]
  exact if_pos hpos

/-- **An answer takes the loop forward**, or the loop of `send_connection_packets` goes on. -/
theorem answer_rank (hret : ¬ c.Returned) (hno : ∀ bytes, a.received ≠ .datagram bytes)
    (h : c.answer a = some c') :
    c'.Returned ∨ c'.rank < c.rank ∨ c.goesOn a = true ∧ c'.rank = c.rank := by
  cases hp : c.phase with
  | idle => exact absurd (Or.inl hp) hret
  | ended => exact absurd (Or.inr hp) hret
  | contexts =>
    rw [answer_eq (e := .contexts) (by rw [hp]; rfl) (by rw [hp]; rfl)] at h
    obtain ⟨context, -, h⟩ := Option.bind_eq_some_iff.mp h
    obtain rfl := Option.some.inj h
    split
    · exact Or.inl (Or.inr rfl)
    · exact Or.inr (Or.inl (rank_lt_of_phase (q := .requests) hp rfl rfl (by decide)))
  | requests =>
    rw [answer_eq (e := .request a.created) (by rw [hp]; rfl) (by rw [hp]; rfl)] at h
    obtain ⟨hl, ⟨r, hq, hphase, hs⟩ | hphase⟩ := checkForNewConnectionRequest_queue h
    · refine Or.inr (Or.inl (rank_lt_of_queues hl hphase ?_))
      rw [hq, hs, List.length_cons]
      omega
    · exact Or.inr (Or.inl (rank_lt_of_phase hp hphase hl (by decide)))
  | incoming =>
    rw [answer_eq (e := .receive a.received) (by rw [hp]; rfl) (by rw [hp]; rfl)] at h
    obtain rfl := Option.some.inj h
    refine Or.inr (Or.inl ?_)
    cases hr : a.received with
    | datagram bytes => exact absurd hr (hno bytes)
    | error => exact rank_lt_of_phase (q := .stateless) hp rfl rfl (by decide)
    | notReady => exact rank_lt_of_phase (q := .stateless) hp rfl rfl (by decide)
  | incomingPacket len =>
    rw [answer_eq (e := .incomingPacketReturns a.bytes a.stateless) (by rw [hp]; rfl)
      (by rw [hp]; rfl)] at h
    obtain rfl := Option.some.inj h
    rw [incomingPacketReturns, hp]
    exact Or.inr (Or.inl (rank_lt_of_phase (q := .incoming) hp rfl rfl (Nat.lt_succ_self 5)))
  | stateless =>
    rw [answer_eq (e := .stateless a.sent) (by rw [hp]; rfl) (by rw [hp]; rfl)] at h
    obtain rfl := Option.some.inj h
    refine Or.inr (Or.inl ?_)
    rcases sendStatelessPackets_spec c a.sent with
      ⟨-, hc⟩ | ⟨packet, stateless, phase, hcons, hc, rfl⟩
    · rw [hc]
      exact rank_lt_of_phase (q := .flush) hp rfl rfl (by decide)
    · rw [hc]
      split
      · refine rank_lt_of_queues rfl rfl ?_
        simp only [hcons, List.length_cons]
        omega
      · exact rank_lt_of_phase (q := .flush) hp rfl rfl (by decide)
  | flush =>
    rw [answer_eq (e := .flush a.sent) (by rw [hp]; rfl) (by rw [hp]; rfl)] at h
    have haside := flushPending_aside h
    rcases flushPending_phase h with hphase | hphase
    · exact Or.inr (Or.inl (rank_lt_of_phase hp hphase haside.loops (by decide)))
    · exact Or.inr (Or.inl (rank_lt_of_phase hp hphase haside.loops (by decide)))
  | connections =>
    rw [answer_eq (e := .due a.due) (by rw [hp]; rfl) (by rw [hp]; rfl)] at h
    have haside := nextConnection_aside h
    rcases nextConnection_phase hp h with hphase | ⟨hends, hphase⟩
    · exact Or.inr (Or.inl (rank_lt_of_phase hp hphase haside.loops (by decide)))
    · refine Or.inr (Or.inr ⟨by simp [goesOn, hp, hends], rank_eq haside ?_⟩)
      rcases hphase with hphase | hphase
      · rw [hp, hphase]
      · rw [hp, hphase]
        rfl
  | preparePacket =>
    rw [answer_eq (e := .packetPrepared a.bytes a.prepared a.sent) (by rw [hp]; rfl)
      (by rw [hp]; rfl)] at h
    have haside := packetPrepared_aside h
    rcases packetPrepared_phase h with hphase | ⟨hgoes, hphase⟩
    · exact Or.inr (Or.inl (rank_lt_of_phase hp hphase haside.loops (by decide)))
    · refine Or.inr (Or.inr ⟨by rw [goesOn, hp]; exact hgoes, rank_eq haside ?_⟩)
      rw [hp, hphase]
      rfl
  | wake =>
    rw [answer_eq (e := .sleep a.nextWake) (by rw [hp]; rfl) (by rw [hp]; rfl)] at h
    obtain rfl := Option.some.inj h
    rw [sleep]
    split
    · exact Or.inl (Or.inl rfl)
    · rename_i hloops
      have hlt : maxLoopsWithoutSleep - (c.loopsWithoutSleep + 1) <
          maxLoopsWithoutSleep - c.loopsWithoutSleep := by omega
      split
      · refine Or.inr (Or.inl ?_)
        rw [rank, rank, Prod.Lex.toLex_lt_toLex]
        exact Or.inl hlt
      · refine Or.inr (Or.inl ?_)
        rw [rank, rank, Prod.Lex.toLex_lt_toLex]
        exact Or.inl hlt
      · exact Or.inl (Or.inl rfl)

theorem sendDataInBuffer_preparations {len : ℕ} {addr : SocketAddr} {answer : SendAnswer}
    {sent : Bool} (h : c.sendDataInBuffer len addr answer = some (sent, c')) :
    c'.preparations = c.preparations := by
  rw [sendDataInBuffer] at h
  split at h
  · cases answer <;>
      (obtain ⟨-, rfl⟩ := Prod.mk.inj (Option.some.inj h); simp [preparations])
  · simp at h

/-- **An answer comes with one call of `prepare_packet` at most.** -/
theorem answer_preparations (h : c.answer a = some c') :
    c'.preparations ≤ c.preparations + 1 := by
  have hsame : c'.packets = c.packets → c'.preparations ≤ c.preparations + 1 := fun hp => by
    rw [preparations, preparations, hp]
    exact Nat.le_succ _
  cases hp : c.phase with
  | idle =>
    rw [answer, hp] at h
    exact hsame (Option.some.inj h ▸ rfl)
  | ended =>
    rw [answer, hp] at h
    exact hsame (Option.some.inj h ▸ rfl)
  | contexts =>
    rw [answer_eq (e := .contexts) (by rw [hp]; rfl) (by rw [hp]; rfl)] at h
    obtain ⟨context, -, h⟩ := Option.bind_eq_some_iff.mp h
    refine hsame (Option.some.inj h ▸ ?_)
    split <;> rfl
  | requests =>
    rw [answer_eq (e := .request a.created) (by rw [hp]; rfl) (by rw [hp]; rfl)] at h
    exact hsame (checkForNewConnectionRequest_spec h).1.packets
  | incoming =>
    rw [answer_eq (e := .receive a.received) (by rw [hp]; rfl) (by rw [hp]; rfl)] at h
    refine hsame (Option.some.inj h ▸ ?_)
    cases a.received <;> rfl
  | incomingPacket len =>
    rw [answer_eq (e := .incomingPacketReturns a.bytes a.stateless) (by rw [hp]; rfl)
      (by rw [hp]; rfl)] at h
    refine hsame (Option.some.inj h ▸ ?_)
    rw [incomingPacketReturns, hp]
    rfl
  | stateless =>
    rw [answer_eq (e := .stateless a.sent) (by rw [hp]; rfl) (by rw [hp]; rfl)] at h
    refine hsame (Option.some.inj h ▸ ?_)
    rcases sendStatelessPackets_spec c a.sent with
      ⟨-, hc⟩ | ⟨packet, stateless, phase, -, hc, -⟩ <;>
      rw [hc]
  | flush =>
    rw [answer_eq (e := .flush a.sent) (by rw [hp]; rfl) (by rw [hp]; rfl)] at h
    simp only [take, flushPending] at h
    split at h
    · obtain ⟨⟨sent, c₁⟩, hs, h⟩ := Option.bind_eq_some_iff.mp h
      obtain rfl := Option.some.inj h
      have hcount := sendDataInBuffer_preparations hs
      exact hcount.le.trans (Nat.le_succ _)
    · exact hsame (Option.some.inj h ▸ rfl)
  | connections =>
    rw [answer_eq (e := .due a.due) (by rw [hp]; rfl) (by rw [hp]; rfl)] at h
    exact hsame (nextConnection_spec h).1.packets
  | preparePacket =>
    rw [answer_eq (e := .packetPrepared a.bytes a.prepared a.sent) (by rw [hp]; rfl)
      (by rw [hp]; rfl)] at h
    simp only [take, packetPrepared] at h
    split at h
    · obtain ⟨⟨sent, c₁⟩, hs, h⟩ := Option.bind_eq_some_iff.mp h
      obtain rfl := Option.some.inj h
      have hcount := sendDataInBuffer_preparations hs
      refine hcount.le.trans ?_
      simp [preparations, writeBuffer]
    · obtain rfl := Option.some.inj h
      simp [preparations, writeBuffer]
  | wake =>
    rw [answer_eq (e := .sleep a.nextWake) (by rw [hp]; rfl) (by rw [hp]; rfl)] at h
    refine hsame (Option.some.inj h ▸ ?_)
    rw [sleep]
    split <;> [rfl; (split <;> rfl)]

/-! ### Calls -/

theorem states_succ : c.states answers (n + 1) = some c' ↔ ∃ c₁ c₂,
    c.states answers n = some c₁ ∧ c₁.meanwhile (answers n) = some c₂ ∧
      c₂.answer (answers n) = some c' := by
  constructor
  · intro h
    obtain ⟨c₁, h₁, h⟩ := Option.bind_eq_some_iff.mp h
    obtain ⟨c₂, h₂, h⟩ := Option.bind_eq_some_iff.mp h
    exact ⟨c₁, c₂, h₁, h₂, h⟩
  · rintro ⟨c₁, c₂, h₁, h₂, h⟩
    exact Option.bind_eq_some_iff.mpr ⟨c₁, h₁, Option.bind_eq_some_iff.mpr ⟨c₂, h₂, h⟩⟩

/-- There is nothing after a panic. -/
theorem states_none {m : ℕ} (hn : c.states answers n = none) (hm : n ≤ m) :
    c.states answers m = none := by
  induction m, hm using Nat.le_induction with
  | base => exact hn
  | succ m hm ih =>
    rw [states, ih]
    rfl

/-- A call that has returned does nothing more. -/
theorem Returned.answer (h : c.Returned) (ha : c.answer a = some c') : c' = c := by
  rw [ContextInner.answer] at ha
  rcases h with hp | hp <;> rw [hp] at ha <;> exact (Option.some.inj ha).symm

theorem returned_stays {m : ℕ} (h : c'.Returned) (hn : c.states answers n = some c')
    (hm : n ≤ m) {c'' : ContextInner} (hc : c.states answers m = some c'') : c''.Returned := by
  induction m, hm using Nat.le_induction generalizing c'' with
  | base =>
    obtain rfl := Option.some.inj (hn.symm.trans hc)
    exact h
  | succ m hm ih =>
    obtain ⟨c₁, c₂, h₁, h₂, hc⟩ := states_succ.mp hc
    have hret : c₂.Returned := by
      rw [Returned, (meanwhile_phase h₂).1]
      exact ih h₁
    rwa [hret.answer hc]

theorem states_preparations (hidle : c.phase = .idle) (hn : c.states answers n = some c') :
    c'.preparations ≤ c.preparations + n := by
  induction n generalizing c' with
  | zero =>
    rw [states, step, if_pos (by rw [hidle]; rfl)] at hn
    obtain rfl := Option.some.inj hn
    exact Nat.le_refl _
  | succ n ih =>
    obtain ⟨c₁, c₂, h₁, h₂, hc⟩ := states_succ.mp hn
    have hcount : c₂.preparations = c₁.preparations := by
      rw [preparations, preparations, (meanwhile_phase h₂).2]
    have hle := ih h₁
    have hone := answer_preparations hc
    omega

/-- **While the loop of `send_connection_packets` goes on, the call does not return.** -/
theorem not_returns_of_goesOn {N : ℕ} (h : ∀ n, N ≤ n → c.GoesOn answers n) :
    ¬ c.Returns answers := by
  rintro ⟨n, c', hn, hret, -⟩
  obtain ⟨c₁, c₂, h₁, h₂, hgoes⟩ := h (max n N) (Nat.le_max_right _ _)
  have hret : c₂.Returned := by
    rw [Returned, (meanwhile_phase h₂).1]
    exact returned_stays hret hn (Nat.le_max_left _ _) h₁
  rw [goesOn] at hgoes
  rcases hret with hp | hp <;> simp [hp] at hgoes

/-- **A call of `poll` returns exactly if no round panics, and the answers end the loop of
`send_connection_packets`**, whenever this is entered. There are finitely many datagrams and
connect requests. -/
theorem poll_returns_iff (hidle : c.phase = .idle)
    (hdatagrams : ∃ N, ∀ n, N ≤ n → ∀ bytes, (answers n).received ≠ .datagram bytes)
    (hrequests : ∃ N, ∀ n, N ≤ n → ∀ addr serverName,
      Call.newConnection addr serverName ∉ (answers n).calls) :
    c.Returns answers ↔
      ¬ c.Panics answers ∧ ¬ ∃ N, ∀ n, N ≤ n → c.GoesOn answers n := by
  constructor
  · refine fun h => ⟨?_, fun hgoes => not_returns_of_goesOn hgoes.choose_spec h⟩
    obtain ⟨n, c', hn, hret, -⟩ := h
    rintro ⟨m, hm, hbefore⟩
    rcases Nat.lt_or_ge n m with hlt | hge
    · exact hbefore n hlt c' hn hret
    · rw [states_none hm hge] at hn
      exact absurd hn (by simp)
  rintro ⟨hsafe, hends⟩
  by_contra hreturns
  have hgoing : ∀ n c', c.states answers n = some c' → ¬ c'.Returned := fun n c' hn hret =>
    hreturns ⟨n, c', hn, hret, states_preparations hidle hn⟩
  have hstate : ∀ n, ∃ c', c.states answers n = some c' := fun n => by
    rw [← Option.ne_none_iff_exists']
    exact fun hn => hsafe ⟨n, hn, fun m _ => hgoing m⟩
  choose s hs using hstate
  obtain ⟨N₁, hdatagrams⟩ := hdatagrams
  obtain ⟨N₂, hrequests⟩ := hrequests
  refine hends ?_
  refine Trace.eventually_of_rank (fun n => (s n).rank) (max N₁ N₂) fun n hn => ?_
  obtain ⟨c₁, c₂, h₁, h₂, hc⟩ := states_succ.mp (hs (n + 1))
  obtain rfl := Option.some.inj ((hs n).symm.trans h₁)
  have hquiet := hrequests n ((Nat.le_max_right _ _).trans hn)
  have hrank : c₂.rank = (s n).rank :=
    rank_eq (meanwhile_aside h₂ hquiet) (by rw [(meanwhile_phase h₂).1])
  have hret : ¬ c₂.Returned := by
    rw [Returned, (meanwhile_phase h₂).1]
    exact hgoing n _ (hs n)
  rcases answer_rank hret (hdatagrams n ((Nat.le_max_left _ _).trans hn)) hc with
    hdone | hlt | ⟨hgoes, heq⟩
  · exact absurd hdone (hgoing _ _ (hs (n + 1)))
  · exact Or.inl (hrank ▸ hlt)
  · exact Or.inr ⟨⟨s n, c₂, hs n, h₂, hgoes⟩, (heq.trans hrank).le⟩

/-- A call that gets a datagram, a request, and a connection that is due three times. -/
theorem poll_returns_iff_of_three_packets :
    let answers : ℕ → Answers := fun n =>
      { calls := if n = 0 then [.newConnection ⟨.v4 1, 443⟩ "server"] else []
        quic := [], created := true
        received := if n = 3 then .datagram [1] else .notReady
        bytes := [1], stateless := [⟨[7], ⟨.v4 1, 2⟩⟩], sent := .sent
        due := if n < 14 then .cnx 0 else .none
        prepared := .ok 1 ⟨.v4 1, 443⟩, nextWake := .some true }
    (new (.default 4)).Returns answers ∧ ¬ (new (.default 4)).Panics answers ∧
      ¬ ∃ N, ∀ n, N ≤ n → (new (.default 4)).GoesOn answers n := by
  intro answers
  have hreturns : (new (.default 4)).Returns answers := ⟨17, _, rfl, Or.inl rfl, by decide⟩
  refine ⟨hreturns, (@poll_returns_iff (new (.default 4)) answers rfl ⟨4, fun n hn bytes => ?_⟩
    ⟨1, fun n hn addr serverName => ?_⟩).mp hreturns⟩
  · have hne : n ≠ 3 := by omega
    simp [answers, hne]
  · have hne : n ≠ 0 := by omega
    simp [answers, hne]

/-- One connect request, and then a connection that is due for ever: `prepare_packet` fails
each time, and picoquic wants to be called again at once. -/
def dueForEver (n : ℕ) : Answers where
  calls := if n = 0 then [.newConnection ⟨.v4 1, 443⟩ "server"] else []
  quic := []
  created := true
  received := .notReady
  bytes := []
  stateless := []
  sent := .sent
  due := .cnx 0
  prepared := .error
  nextWake := .none

theorem meanwhile_dueForEver (hn : n ≠ 0) : c.meanwhile (dueForEver n) = some c := by
  rw [meanwhile, dueForEver, if_neg hn]
  rfl

/-- The loop of `send_connection_packets` goes on while the connection is there. -/
theorem answer_dueForEver (hp : c.phase = .connections ∨ c.phase = .preparePacket)
    (hk : c.endsConnections (.cnx 0) = false)
    (hdeleted : (c.context.cnxs[0]?.any fun cnx => cnx.deleted.isNone) = true) :
    c.goesOn (dueForEver n) = true ∧ ∃ c', c.answer (dueForEver n) = some c' ∧
      (c'.phase = .connections ∨ c'.phase = .preparePacket) ∧ c'.context = c.context := by
  rcases hp with hp | hp
  · refine ⟨by rw [goesOn, hp]; simpa [dueForEver] using hk, ?_⟩
    rw [answer_eq (e := .due (.cnx 0)) (by rw [hp]; rfl) (by rw [hp]; rfl)]
    obtain ⟨cnx, hcnx, hnone⟩ := (Option.any_eq_true _ _).mp hdeleted
    rw [endsConnections, hcnx, Option.any_some, hnone, Bool.true_and] at hk
    refine ⟨{ c with phase := .preparePacket }, ?_, Or.inr rfl, rfl⟩
    simp only [take, nextConnection, hcnx, hk, ← Option.not_isNone, hnone, Bool.not_true,
      Bool.false_eq_true, if_false]
  · refine ⟨by rw [goesOn, hp]; rfl, ?_⟩
    rw [answer_eq (e := .packetPrepared [] .error .sent) (by rw [hp]; rfl) (by rw [hp]; rfl)]
    exact ⟨_, rfl, Or.inl rfl, rfl⟩

/-- **A connection is due for ever, and the call does not return**, nor does it panic. -/
theorem poll_never_returns :
    ¬ (new (.default 1536)).Returns dueForEver ∧ ¬ (new (.default 1536)).Panics dueForEver := by
  have hgoes : ∀ n, 6 ≤ n → ∃ c, (new (.default 1536)).states dueForEver n = some c ∧
      (c.phase = .connections ∨ c.phase = .preparePacket) ∧
      c.endsConnections (.cnx 0) = false ∧
      (c.context.cnxs[0]?.any fun cnx => cnx.deleted.isNone) = true := by
    intro n hn
    induction n, hn using Nat.le_induction with
    | base => exact ⟨_, rfl, Or.inl rfl, rfl, rfl⟩
    | succ n hn ih =>
      obtain ⟨c, hc, hp, hk, hdeleted⟩ := ih
      obtain ⟨-, c', hc', hp', hcontext⟩ := answer_dueForEver (n := n) hp hk hdeleted
      refine ⟨c', states_succ.mpr ⟨c, c, hc, meanwhile_dueForEver (by omega), hc'⟩, hp', ?_,
        hcontext ▸ hdeleted⟩
      rw [endsConnections, hcontext]
      exact hk
  constructor
  · refine not_returns_of_goesOn (N := 6) fun n hn => ?_
    obtain ⟨c, hc, hp, hk, hdeleted⟩ := hgoes n hn
    exact ⟨c, c, hc, meanwhile_dueForEver (by omega), (answer_dueForEver hp hk hdeleted).1⟩
  · rintro ⟨n, hn, -⟩
    obtain ⟨c, hc, -⟩ := hgoes (max n 6) (Nat.le_max_right _ _)
    rw [states_none hn (Nat.le_max_left _ _)] at hc
    exact absurd hc (by simp)

end ContextInner

end Endpoint

end PicoquicRs
