import PicoquicRs.Connections.Listening
import PicoquicRs.Endpoint.Returns
import PicoquicRs.Endpoint.Steps
import PicoquicRs.Streams.Control

/-!
# Is a wake-up lost?

`ContextInner::poll` returns `NotReady` when it has nothing to do, and is called again once
one of its sources wakes the task. Polling a source registers the task exactly when the
answer is `NotReady`, so each source has to be asked until it says so, in every call and on
every way through it. Connections and streams are made in the middle of an iteration, after
the contexts were polled; what keeps them awake is that their constructors poll once what
they listen to.

They do so for the requests to create a stream and for the control messages of the streams,
but not for the message that closes the connection; and the socket is not asked again after an
error. There is no other way to lose a wake-up
(`PicoquicRs.Endpoint.ContextInner.registered_iff`).
-/

namespace PicoquicRs

namespace Endpoint

open Futures

/-! ### One connection -/

namespace Cnx

variable {c c' : Cnx} {n n' : ℕ} {k : CnxRef}

/-- **Whatever is not a poll** leaves a connection closed, or listened to as before. -/
def Keeps (c c' : Cnx) : Prop :=
  c'.ends.ctx.closed = false → c.ends.ctx.closed = false ∧ c'.listed = c.listed ∧
    ∀ polled, c.ends.Listening polled → c'.ends.Listening polled

theorem Keeps.refl (c : Cnx) : Keeps c c := fun hopen => ⟨hopen, rfl, fun _ h => h⟩

theorem Keeps.trans {c'' : Cnx} (h : Keeps c c') (h' : Keeps c' c'') : Keeps c c'' := by
  intro hopen
  obtain ⟨hopen', hlisted', hkeep'⟩ := h' hopen
  obtain ⟨hopen, hlisted, hkeep⟩ := h hopen'
  exact ⟨hopen, hlisted'.trans hlisted, fun polled h => hkeep' polled (hkeep polled h)⟩

/-- An event at the two ends. -/
theorem Keeps.of_ends {e : Connections.Event} {ends : Ends} (hne : e ≠ .poll)
    (h : c.ends.step e = some ends) (hc : c'.ends = ends) (hl : c'.listed = c.listed) :
    Keeps c c' := by
  intro hopen
  rw [hc] at hopen ⊢
  have hkeep : ∀ polled, c.ends.ctx.closed = false ∧
      (c.ends.Listening polled → ends.Listening polled) :=
    fun _ => Connections.Ends.step_listening hne h hopen
  exact ⟨(hkeep true).1, hl, fun polled => (hkeep polled).2⟩

theorem release_keeps (h : c.release = some c') : Keeps c c' := by
  rw [release] at h
  split at h
  · obtain ⟨ends, hends, h⟩ := Option.bind_eq_some_iff.mp h
    obtain rfl := Option.some.inj h
    exact .of_ends (by simp) hends rfl rfl
  · obtain rfl := Option.some.inj h
    exact .refl c

theorem connectionCallback_keeps {cb : Callback} (h : c.connectionCallback cb = some c') :
    Keeps c c' := by
  cases cb with
  | close codes =>
    obtain ⟨ends, hends, h⟩ := Option.bind_eq_some_iff.mp h
    have hclose : Keeps c { c with ends, givenUp := c.givenUp + 1 } :=
      .of_ends (by simp) hends rfl rfl
    exact hclose.trans (release_keeps h)
  | other cb =>
    obtain ⟨ends, hends, h⟩ := Option.bind_eq_some_iff.mp h
    obtain rfl := Option.some.inj h
    exact .of_ends (by simp) hends rfl rfl

theorem step_keeps {e : Event} (hne : e ≠ .retain) (h : c.step e = some c') : Keeps c c' := by
  cases e with
  | retain => exact absurd rfl hne
  | callback cb =>
    simp only [step] at h
    split at h
    · exact connectionCallback_keeps h
    · obtain rfl := Option.some.inj h
      exact .refl c
  | disconnect =>
    obtain rfl := Option.some.inj h
    split <;> exact fun hopen => ⟨hopen, rfl, fun _ h => h⟩
  | delete =>
    obtain rfl := Option.some.inj h
    split <;> exact fun hopen => ⟨hopen, rfl, fun _ h => h⟩
  | application ae =>
    simp only [step] at h
    split at h
    · obtain rfl := Option.some.inj h
      exact .refl c
    · rename_i hat
      obtain ⟨ends, hends, h⟩ := Option.bind_eq_some_iff.mp h
      obtain rfl := Option.some.inj h
      refine .of_ends ?_ hends rfl rfl
      rintro rfl
      exact hat rfl

/-- **The connection at the place `k` is listened to**, if the first `n` were polled: one that
is not closed is in the vector. -/
def Heard (n : ℕ) (k : CnxRef) (c : Cnx) : Prop :=
  c.ends.ctx.closed = false → c.listed = true ∧ c.ends.Listening (decide (k < n))

theorem Keeps.heard (h : Keeps c c') (hc : c.Heard n k) : c'.Heard n k := by
  intro hopen
  obtain ⟨hopen, hlisted, hkeep⟩ := h hopen
  exact ⟨hlisted.trans (hc hopen).1, hkeep _ (hc hopen).2⟩

/-- **A poll makes the connection heard.** -/
theorem retain_heard (h : c.retain = some c') (hc : c.Heard n k) (hk : k < n') :
    c'.Heard n' k := by
  intro hopen
  rw [decide_eq_true hk]
  rcases retain_spec h with ⟨hlisted, rfl⟩ | ⟨a, ctx, hlisted, -, hpoll, ⟨-, rfl⟩ | ⟨rfl, hrel⟩⟩
  · exact absurd ((hc hopen).1) (by simp [hlisted])
  · have hopen₀ := (Connections.Context.poll_open hpoll hopen).1
    exact ⟨hlisted, Connections.Ends.poll_listening (hc hopen₀).2 hpoll hopen⟩
  · -- only a closed context is ready
    obtain ⟨hopen₁, -⟩ := release_keeps hrel hopen
    exact absurd (Connections.Context.poll_open hpoll hopen₁).2 (by simp)

end Cnx

/-! ### All connections -/

namespace CContext

variable {c c' : CContext} {n : ℕ}

/-- **The first `n` connections were polled** since they were made, and are listened to. -/
structure Heard (n : ℕ) (c : CContext) : Prop where
  le : n ≤ c.cnxs.length
  cnxs : ∀ k (cnx : Cnx), c.cnxs[k]? = some cnx → cnx.Heard n k

theorem Heard.step {e : Event} (h : c.Heard n) (hne : e ≠ .poll) (hstep : c.step e = some c') :
    c'.Heard n := by
  refine ⟨h.le.trans (step_length hstep), ?_⟩
  have hnew : decide (c.cnxs.length < n) = false := decide_eq_false (not_lt.mpr h.le)
  refine step_rule_at h.cnxs ?_ ?_ ?_ ?_ hstep
  · intro k cnx cnx' ce _ hon hcnx hce
    refine (Cnx.step_keeps ?_ hce).heard hcnx
    rintro rfl
    cases e <;> simp [Event.on] at hon
    exact hne rfl
  · exact fun k cnx cnx' ae hcnx hce => (Cnx.step_keeps (by simp) hce).heard hcnx
  · intro cb cnx hcb hopen
    obtain ⟨-, -, hkeep⟩ := Cnx.connectionCallback_keeps hcb hopen
    rw [hnew]
    exact ⟨rfl, hkeep false (Connections.Ends.new_listening false)⟩
  · intro _
    rw [hnew]
    exact ⟨rfl, Connections.Ends.new_listening true⟩

/-- **Polling the contexts polls all of them.** -/
theorem Heard.poll (h : c.Heard n) (hstep : c.step .poll = some c') :
    c'.Heard c.cnxs.length := by
  obtain ⟨cnxs, hcnxs, hstep⟩ := Option.bind_eq_some_iff.mp hstep
  obtain rfl := Option.some.inj hstep
  refine ⟨(Each.mapM_length hcnxs).ge, fun k cnx' hk' => ?_⟩
  obtain ⟨cnx, hk, hretain⟩ := Each.of_mapM_getElem? hcnxs hk'
  exact Cnx.retain_heard hretain (h.cnxs k cnx hk) (List.getElem?_eq_some_iff.mp hk).choose

end CContext

/-! ### What a run asks its sources -/

namespace ContextInner

/-- How many connections there are when the contexts are polled. -/
def polls (c : ContextInner) : Event → List ℕ
  | .contexts => if c.phase = .contexts then [c.context.cnxs.length] else []
  | _ => []

/-- What the close handle says, where it is polled: whether the `Context` was dropped. -/
def closeAnswers (c : ContextInner) : Event → List Bool
  | .contexts => if c.phase = .contexts then [c.contextDropped] else []
  | _ => []

/-- What the socket says when it is asked for a datagram. -/
def receives (c : ContextInner) : Event → List Received
  | .receive r => if c.phase = .incoming then [r] else []
  | _ => []

variable {c c' : ContextInner} {e : Event} {es : List Event} {setup : Setup} {n : ℕ}

/-- How many connections there were when the contexts were polled last. -/
def polledLast (setup : Setup) (es : List Event) : ℕ :=
  (Trace.log step polls (new setup) es).getLast?.getD 0

/-- What the close handle said last. -/
def closeAnswer (setup : Setup) (es : List Event) : Option Bool :=
  (Trace.log step closeAnswers (new setup) es).getLast?

/-- What the socket said last. -/
def receivedLast (setup : Setup) (es : List Event) : Option Received :=
  (Trace.log step receives (new setup) es).getLast?

/-- The last entry of a log is that of the last event, if it logs any. -/
theorem log_getLast? {α : Type*} {out : ContextInner → Event → List α}
    (hrun : (new setup).run es = some c) (e : Event) :
    (Trace.log step out (new setup) (es ++ [e])).getLast? =
      (out c e).getLast?.or (Trace.log step out (new setup) es).getLast? := by
  rw [Trace.log_append hrun, Trace.log_singleton, List.getLast?_append]

/-! ### The contexts -/

/-- **Only the top of the loop polls the contexts.** -/
theorem step_heard (hstep : c.step e = some c') (h : c.context.Heard n)
    (hno : e = .contexts → c.phase ≠ .contexts) : c'.context.Heard n := by
  rcases step_contexts hstep with hsame | ⟨rfl, hpos, -⟩ | ⟨created, rfl, -, hc⟩ |
    ⟨k, cnx, -, -, -, -, hdelete⟩ | ⟨q, -, hquic⟩
  · rcases hsame with hsame | ⟨ce, happ, hce⟩
    · rwa [hsame]
    · refine h.step ?_ hce
      rintro rfl
      exact absurd happ Bool.false_ne_true
  · exact absurd (phase_of_possible hpos rfl) (hno rfl)
  · rcases (checkForNewConnectionRequest_spec hc).2.2 with hsame | ⟨waiting, hce⟩
    · rwa [hsame]
    · exact h.step (by simp) hce
  · exact h.step (by simp) hdelete
  · refine h.step ?_ hquic
    cases q <;> simp [QuicEvent.toContext]

/-- **In every run the connections are heard**, but for those made since the contexts were
polled last. -/
theorem run_heard (hrun : (new setup).run es = some c) :
    c.context.Heard (polledLast setup es) := by
  refine Trace.run_records
    (R := fun es c => c.context.Heard (polledLast setup es)) ?_ ?_ hrun
  · rintro es e c c' hrun h hstep
    rw [polledLast, log_getLast? hrun]
    by_cases he : e = .contexts ∧ c.phase = .contexts
    · obtain ⟨rfl, hp⟩ := he
      have hpolls : c.polls .contexts = [c.context.cnxs.length] := if_pos hp
      rw [step, if_pos (by rw [hp]; rfl)] at hstep
      obtain ⟨context, hcontext, hstep⟩ := Option.bind_eq_some_iff.mp hstep
      obtain rfl := Option.some.inj hstep
      rw [hpolls]
      have hpoll : context.Heard c.context.cnxs.length := h.poll hcontext
      split <;> exact hpoll
    · have hpolls : c.polls e = [] := by
        cases e <;> first | rfl | exact if_neg fun hp => he ⟨rfl, hp⟩
      rw [hpolls]
      exact step_heard hstep h fun heq hp => he ⟨heq, hp⟩
  · exact ⟨Nat.le_refl _, fun k cnx hk => by simp [new, CContext.new] at hk⟩

/-! ### The sources of the loop -/

/-- **What the loop has asked on its way** through an iteration: the close handle, then
`recv_connect`, then the socket. -/
structure Asked (setup : Setup) (es : List Event) (c : ContextInner) : Prop where
  close : 0 < c.phase.rank → c.phase.rank < 8 → closeAnswer setup es = some false
  connects : 0 < c.phase.rank → c.phase.rank < 7 → c.recvConnect.Watched
  socket : 0 < c.phase.rank → c.phase.rank < 5 →
    (c.recvRegistered = true ↔ ∀ r, receivedLast setup es = some r → r ≠ .error)

/-- The application leaves `recv_connect` watched, and does not read from the socket. -/
theorem stepApplication_asked {call : Call} (h : c.stepApplication call = some c') :
    (c.recvConnect.Watched → c'.recvConnect.Watched) ∧ c'.recvRegistered = c.recvRegistered := by
  rcases stepApplication_cases h with ⟨addr, serverName, -, hs, rfl⟩ |
    ⟨context, closeHandle, requests, recvConnect, rfl, -, -, hrecv⟩
  · refine ⟨fun hw => ?_, rfl⟩
    cases ho : c.recvConnect.isOpen with
    | true =>
      have hended : c.recvConnect.isEnded = false := by
        simp [Chan.isEnded, ho, Nat.ne_of_gt hs]
      rw [newConnection, Chan.unboundedSend_of_open ho]
      exact hw.push hended _
    | false =>
      rw [newConnection, Chan.unboundedSend_of_closed ho]
      exact hw
  · refine ⟨fun hw => ?_, rfl⟩
    rcases hrecv with rfl | rfl | ⟨hs, rfl⟩
    · exact hw
    · exact hw.dropSender
    · exact hw.cloneSender (Nat.ne_of_gt hs)

namespace Asked

/-- Outside an iteration there is nothing to say. -/
theorem outside (h : c.phase.rank = 0 ∨ c.phase.rank = 8) : Asked setup es c := by
  constructor <;> (intro h₀ h₁; omega)

/-- **The loop goes on** and asks none of the three. -/
theorem goesOn (h : Asked setup es c) (hrun : (new setup).run es = some c)
    (hclose : c.closeAnswers e = []) (hreceives : c.receives e = [])
    (hw : c.recvConnect.Watched → c'.recvConnect.Watched)
    (hs : c'.recvRegistered = c.recvRegistered)
    (hrank : c'.phase.rank = c.phase.rank ∨ 0 < c.phase.rank ∧ c.phase.rank < 5 ∧
      c'.phase.rank < 5 ∨ c.phase.rank = 6 ∧ c'.phase.rank = 5) :
    Asked setup (es ++ [e]) c' where
  close h₀ h₁ := by
    rw [closeAnswer, log_getLast? hrun, hclose]
    exact h.close (by omega) (by omega)
  connects h₀ h₁ := hw (h.connects (by omega) (by omega))
  socket h₀ h₁ := by
    rw [hs, receivedLast, log_getLast? hrun, hreceives]
    exact h.socket (by omega) (by omega)

/-- **The loop sends**, on its way from one place to the next. -/
theorem sends (h : Asked setup es c) (hrun : (new setup).run es = some c)
    (hclose : c.closeAnswers e = []) (hreceives : c.receives e = [])
    (hw : c'.recvConnect = c.recvConnect) (hs : c'.recvRegistered = c.recvRegistered)
    {p p' : Phase} (hp : c.phase = p) (hp' : c'.phase = p')
    (hrank : 0 < p.rank ∧ p.rank < 5 ∧ p'.rank < 5) : Asked setup (es ++ [e]) c' := by
  refine h.goesOn hrun hclose hreceives (fun hwatched => ?_) hs (Or.inr (Or.inl ?_))
  · rwa [hw]
  · rwa [hp, hp']

/-- **A round of `check_for_new_connection_request`** asks `recv_connect`, and ends when nothing
is there. -/
theorem request (h : Asked setup es c) (hrun : (new setup).run es = some c)
    (hp : c.phase = .requests) {created : Bool}
    (hc : c.checkForNewConnectionRequest created = some c') :
    Asked setup (es ++ [.request created]) c' := by
  have hclose : closeAnswer setup (es ++ [.request created]) = some false := by
    rw [closeAnswer, log_getLast? hrun]
    exact h.close (by rw [hp]; decide) (by rw [hp]; decide)
  cases hq : c.recvConnect.queue with
  | cons r q =>
    have hphase := (checkForNewConnectionRequest_takes hq hc).2.1
    refine ⟨fun _ _ => hclose, fun _ h₁ => ?_, fun _ h₁ => ?_⟩
    · rw [hphase, hp] at h₁
      exact absurd h₁ (by decide)
    · rw [hphase, hp] at h₁
      exact absurd h₁ (by decide)
  | nil =>
    rw [checkForNewConnectionRequest_nil hq] at hc
    obtain rfl := Option.some.inj hc
    exact ⟨fun _ _ => hclose, fun _ _ => Chan.watched_poll hq, fun _ h₁ => absurd h₁ (lt_irrefl 5)⟩

/-- **A round of `check_for_incoming_data`** asks the socket, and ends when it says that nothing
is there, or that it has an error. -/
theorem receive (h : Asked setup es c) (hrun : (new setup).run es = some c)
    (hp : c.phase = .incoming) (r : Received) :
    Asked setup (es ++ [.receive r]) (c.checkForIncomingData r) := by
  have hclose : closeAnswer setup (es ++ [.receive r]) = some false := by
    rw [closeAnswer, log_getLast? hrun]
    exact h.close (by rw [hp]; decide) (by rw [hp]; decide)
  have hconnects : c.recvConnect.Watched := h.connects (by rw [hp]; decide) (by rw [hp]; decide)
  have hreceived : receivedLast setup (es ++ [.receive r]) = some r := by
    have hreceives : c.receives (.receive r) = [r] := if_pos hp
    rw [receivedLast, log_getLast? hrun, hreceives]
    rfl
  cases r with
  | datagram bytes =>
    refine ⟨fun _ _ => hclose, fun _ _ => hconnects, fun _ h₁ => absurd h₁ ?_⟩
    exact Nat.not_lt.mpr (Nat.le_succ 5)
  | error =>
    refine ⟨fun _ _ => hclose, fun _ _ => hconnects, fun _ _ => ?_⟩
    rw [hreceived]
    exact iff_of_false Bool.false_ne_true fun hno => hno _ rfl rfl
  | notReady =>
    refine ⟨fun _ _ => hclose, fun _ _ => hconnects, fun _ _ => ?_⟩
    rw [hreceived]
    refine iff_of_true rfl fun r hr => ?_
    obtain rfl := Option.some.inj hr
    simp

/-- **The top of the loop** asks the close handle, and ends if the `Context` was dropped. -/
theorem contexts (hrun : (new setup).run es = some c) (hp : c.phase = .contexts)
    (hc : c.pollContexts = some c') : Asked setup (es ++ [.contexts]) c' := by
  have hclose : closeAnswer setup (es ++ [.contexts]) = some c.contextDropped := by
    have hanswers : c.closeAnswers .contexts = [c.contextDropped] := if_pos hp
    rw [closeAnswer, log_getLast? hrun, hanswers]
    rfl
  obtain ⟨context, -, hc⟩ := Option.bind_eq_some_iff.mp hc
  obtain rfl := Option.some.inj hc
  have hsame : ({ c with context } : ContextInner).contextDropped = c.contextDropped := rfl
  rw [hsame]
  cases hdropped : c.contextDropped with
  | true => exact outside (Or.inl rfl)
  | false =>
    rw [hdropped] at hclose
    rw [if_neg Bool.false_ne_true]
    have hfar : ¬ 7 < 5 := by decide
    exact ⟨fun _ _ => hclose, fun _ h₁ => absurd h₁ (lt_irrefl 7), fun _ h₁ => absurd h₁ hfar⟩

/-- **Each step of the loop** asks one source, or none and goes on. -/
theorem step (h : Asked setup es c) (hrun : (new setup).run es = some c)
    (hstep : c.step e = some c') : Asked setup (es ++ [e]) c' := by
  rw [ContextInner.step] at hstep
  split at hstep
  · rename_i hpos
    cases e with
    | poll =>
      obtain rfl := Option.some.inj hstep
      exact outside (Or.inr rfl)
    | contexts => exact contexts hrun (phase_of_possible hpos rfl) hstep
    | request created => exact h.request hrun (phase_of_possible hpos rfl) hstep
    | receive r =>
      obtain rfl := Option.some.inj hstep
      exact h.receive hrun (phase_of_possible hpos rfl) r
    | incomingPacketReturns bytes stateless =>
      obtain rfl := Option.some.inj hstep
      obtain ⟨len, hp⟩ := incomingPacket_of_possible hpos
      rw [incomingPacketReturns, hp]
      exact h.goesOn hrun rfl rfl (fun hw => hw) rfl (Or.inr (Or.inr ⟨by rw [hp]; rfl, rfl⟩))
    | stateless answer =>
      obtain rfl := Option.some.inj hstep
      have hp : c.phase = .stateless := phase_of_possible hpos rfl
      rcases sendStatelessPackets_spec c answer with ⟨-, hc⟩ |
        ⟨packet, stateless, phase, -, hc, hphase⟩
      · rw [hc]
        have hphase : ({ c with phase := .flush } : ContextInner).phase = .flush := rfl
        exact h.sends hrun rfl rfl rfl rfl hp hphase (by decide)
      · rw [hc]
        rw [hp] at hphase
        split at hphase
        · exact h.sends hrun rfl rfl rfl rfl hp hphase (by decide)
        · exact h.sends hrun rfl rfl rfl rfl hp hphase (by decide)
    | flush answer =>
      have hp : c.phase = .flush := phase_of_possible hpos rfl
      have hphase := flushPending_phase hstep
      obtain ⟨notSendLength, packets, phase, rfl⟩ := flushPending_frame hstep
      rcases hphase with hphase | hphase
      · exact h.sends hrun rfl rfl rfl rfl hp hphase (by decide)
      · exact h.sends hrun rfl rfl rfl rfl hp hphase (by decide)
    | due d =>
      have hp : c.phase = .connections := phase_of_possible hpos rfl
      have hphase := nextConnection_phase hp hstep
      obtain ⟨context, phase, rfl⟩ := nextConnection_frame hstep
      rcases hphase with hphase | ⟨-, hphase | hphase⟩
      · exact h.sends hrun rfl rfl rfl rfl hp hphase (by decide)
      · exact h.sends hrun rfl rfl rfl rfl hp hphase (by decide)
      · exact h.sends hrun rfl rfl rfl rfl hp hphase (by decide)
    | packetPrepared bytes ret answer =>
      have hp : c.phase = .preparePacket := phase_of_possible hpos rfl
      have hphase := packetPrepared_phase hstep
      obtain ⟨buffer, notSendLength, packets, phase, rfl⟩ := packetPrepared_frame hstep
      rcases hphase with hphase | ⟨-, hphase⟩
      · exact h.sends hrun rfl rfl rfl rfl hp hphase (by decide)
      · exact h.sends hrun rfl rfl rfl rfl hp hphase (by decide)
    | sleep nextWake =>
      obtain rfl := Option.some.inj hstep
      rw [sleep]
      split
      · exact outside (Or.inl rfl)
      · split
        · exact outside (Or.inr rfl)
        · exact outside (Or.inr rfl)
        · exact outside (Or.inl rfl)
    | quic q =>
      obtain ⟨context, -, hstep⟩ := Option.bind_eq_some_iff.mp hstep
      obtain rfl := Option.some.inj hstep
      exact h.goesOn hrun rfl rfl (fun hw => hw) rfl (Or.inl rfl)
    | application call =>
      obtain ⟨hw, hs⟩ := stepApplication_asked hstep
      exact h.goesOn hrun rfl rfl hw hs (Or.inl (by rw [(stepApplication_spec hstep).2.1]))
  · rename_i hpos
    obtain rfl := Option.some.inj hstep
    refine h.goesOn hrun ?_ ?_ (fun hw => hw) rfl (Or.inl rfl)
    · cases e <;> first | rfl | exact if_neg fun hp => hpos (by rw [hp]; rfl)
    · cases e <;> first | rfl | exact if_neg fun hp => hpos (by rw [hp]; rfl)

end Asked

/-- **In every run the loop has asked** what it has passed. -/
theorem run_asked (hrun : (new setup).run es = some c) : Asked setup es c :=
  Trace.run_records (fun _ _ _ _ hrun h hstep => h.step hrun hstep) (.outside (Or.inl rfl)) hrun

/-! ### The return -/

/-- **The contexts of a run** are in a state that a run of their own leads to. -/
theorem run_context (hrun : (new setup).run es = some c) :
    ∃ ces, (new setup).context.run ces = some c.context := by
  refine Trace.run_keeps
    (P := fun c : ContextInner => ∃ ces, (new setup).context.run ces = some c.context)
    ?_ ⟨[], rfl⟩ hrun
  rintro c e - c' ⟨ces, hces⟩ hstep
  have hsnoc : ∀ ce, c.context.step ce = some c'.context →
      ∃ ces, (new setup).context.run ces = some c'.context := by
    intro ce hce
    refine ⟨ces ++ [ce], ?_⟩
    rw [CContext.run, Trace.run_append]
    refine Option.bind_eq_some_iff.mpr ⟨c.context, hces, ?_⟩
    rw [Trace.run_cons_of_step hce, Trace.run_nil]
  rcases step_context hstep with (hsame | ⟨ce, -, hce⟩) | ⟨k, cnx, -, -, -, -, hce⟩
  · exact ⟨ces, by rw [hsame, hces]⟩
  · exact hsnoc ce hce
  · exact hsnoc _ hce

/-- In every run the control messages of all streams are watched. -/
theorem run_control (hrun : (new setup).run es = some c) {cnx : Cnx}
    (hcnx : cnx ∈ c.context.cnxs) {en : Connections.Entry} (hen : en ∈ cnx.ends.ctx.streams)
    (ha : en.pair.alive = true) : en.pair.ctx.controlMsg.Watched := by
  obtain ⟨ces, hces⟩ := run_context hrun
  obtain ⟨isClient, cnxes, hends⟩ := CContext.run_sound hces cnx hcnx
  exact Streams.Pair.run_control ((Connections.Ends.run_sound hends).2 en hen) ha

/-- **Every source of the event loop is registered**, or nothing can come from it any more: the
close handle, `recv_connect`, the socket, the timer, and what the contexts of the connections
and of their streams listen to. -/
structure Registered (setup : Setup) (es : List Event) (c : ContextInner) : Prop where
  /-- The close handle said that the `Context` was not dropped, when it was polled last. -/
  closeHandle : closeAnswer setup es = some false
  recvConnect : c.recvConnect.Watched
  socket : c.recvRegistered = true
  timer : c.timerRegistered = true
  recvCreateStream : ∀ cnx ∈ c.context.cnxs, cnx.listed = true → cnx.ends.ctx.closed = false →
    cnx.ends.ctx.recvCreateStream.chan.Watched
  closeRecv : ∀ cnx ∈ c.context.cnxs, cnx.listed = true → cnx.ends.ctx.closed = false →
    cnx.ends.ctx.closeRecv.Watched
  controlMsg : ∀ cnx ∈ c.context.cnxs, cnx.listed = true → cnx.ends.ctx.closed = false →
    ∀ en ∈ cnx.ends.ctx.streams, en.pair.alive = true → en.pair.ctx.controlMsg.Watched

/-- The loop returns `NotReady`, and has not notified its own task: the timer was asked. -/
theorem sleep_returns {w : NextWake} (hp : c.phase = .wake) (hstep : c.step (.sleep w) = some c')
    (hreturns : c'.phase = .idle) (hquiet : c'.notified = false) :
    c' = { c with phase := .idle, timerRegistered := true } := by
  rw [step, if_pos (by rw [hp]; rfl)] at hstep
  obtain rfl := Option.some.inj hstep
  rw [sleep] at hreturns hquiet ⊢
  split at hquiet
  · simp at hquiet
  · rename_i hloops
    rw [if_neg hloops] at hreturns
    rw [if_neg hloops]
    cases w with
    | none => simp at hreturns
    | some timerNotReady =>
      cases timerNotReady with
      | true => rfl
      | false => simp at hreturns

/-- **No wake-up is lost**, exactly if the socket did not say last that it has an error, and
every connection that was made since the contexts were polled last is closed, or its `Connection`
was dropped without a word. -/
theorem registered_iff {w : NextWake} (hrun : (new setup).run es = some c)
    (hp : c.phase = .wake) (hstep : c.step (.sleep w) = some c') (hreturns : c'.phase = .idle)
    (hquiet : c'.notified = false) :
    Registered setup (es ++ [.sleep w]) c' ↔
      (∀ r, receivedLast setup es = some r → r ≠ .error) ∧
      ∀ k cnx, c.context.cnxs[k]? = some cnx → polledLast setup es ≤ k →
        cnx.ends.ctx.closed = false →
        cnx.ends.ctx.closeRecv.value = none ∧ cnx.ends.ctx.closeRecv.pending = false := by
  have hasked := run_asked hrun
  have hheard := run_heard hrun
  have hsocket := hasked.socket (by rw [hp]; decide) (by rw [hp]; decide)
  obtain rfl := sleep_returns hp hstep hreturns hquiet
  constructor
  · intro h
    refine ⟨hsocket.mp h.socket, fun k cnx hk hlater hopen => ?_⟩
    obtain ⟨hlisted, hlistening⟩ := hheard.cnxs k cnx hk hopen
    have hunregistered := hlistening.close
    rw [decide_eq_false (not_lt.mpr hlater), if_neg Bool.false_ne_true] at hunregistered
    rcases h.closeRecv cnx (List.mem_of_getElem? hk) hlisted hopen with hr | hterminated
    · rw [hunregistered] at hr
      exact absurd hr Bool.false_ne_true
    · exact hterminated
  · rintro ⟨hno, hdropped⟩
    have hlistening : ∀ cnx ∈ c.context.cnxs, cnx.ends.ctx.closed = false →
        ∃ k, c.context.cnxs[k]? = some cnx ∧
          cnx.ends.Listening (decide (k < polledLast setup es)) := by
      intro cnx hcnx hopen
      obtain ⟨k, hk⟩ := List.mem_iff_getElem?.mp hcnx
      exact ⟨k, hk, (hheard.cnxs k cnx hk hopen).2⟩
    refine ⟨?_, ?_, hsocket.mpr hno, rfl, ?_, ?_, ?_⟩
    · rw [closeAnswer, log_getLast? hrun]
      exact hasked.close (by rw [hp]; decide) (by rw [hp]; decide)
    · exact hasked.connects (by rw [hp]; decide) (by rw [hp]; decide)
    · rintro cnx hcnx - hopen
      obtain ⟨k, -, h⟩ := hlistening cnx hcnx hopen
      exact h.requests
    · rintro cnx hcnx - hopen
      obtain ⟨k, hk, h⟩ := hlistening cnx hcnx hopen
      have hclose := h.close
      rcases Nat.lt_or_ge k (polledLast setup es) with hlt | hge
      · rwa [decide_eq_true hlt, if_pos rfl] at hclose
      · exact Or.inr (hdropped k cnx hk hge hopen)
    · exact fun cnx hcnx _ _ en hen ha => run_control hrun hcnx hen ha

/-- A call in which a connection comes in, up to the bottom of the loop. -/
def incomingCall : List Event :=
  [.poll, .contexts, .request true, .receive (.datagram [0]),
    .quic (.incoming false (.other .almostReady)), .incomingPacketReturns [] [],
    .receive .notReady, .stateless .sent, .flush .sent, .due .none]

/-- One more iteration of it, in which nothing happens. -/
def quietIteration : List Event :=
  [.sleep .none, .contexts, .request true, .receive .notReady, .stateless .sent, .flush .sent,
    .due .none]

/-- The connection is heard if there is one more iteration. -/
theorem registered_after_quiet_iteration :
    ∃ c c', (new (.default 1536)).run (incomingCall ++ quietIteration) = some c ∧
      c.step (.sleep (.some true)) = some c' ∧ c'.context.cnxs.length = 1 ∧
      Registered (.default 1536) (incomingCall ++ quietIteration ++ [.sleep (.some true)]) c' := by
  have hfacts : ((new (.default 1536)).run (incomingCall ++ quietIteration)).map
      (fun c => (c.phase, c.loopsWithoutSleep, c.notified, c.context.cnxs.length)) =
        some (.wake, 1, false, 1) := rfl
  obtain ⟨c, hrun, hc⟩ := Option.map_eq_some_iff.mp hfacts
  simp only [Prod.mk.injEq] at hc
  obtain ⟨hp, hloops, hnotified, hlen⟩ := hc
  have hstep : c.step (.sleep (.some true)) =
      some { c with phase := .idle, timerRegistered := true } := by
    rw [step, if_pos (by rw [hp]; rfl)]
    simp [take, sleep, hloops, maxLoopsWithoutSleep]
  have hreceived : receivedLast (.default 1536) (incomingCall ++ quietIteration) =
      some .notReady := rfl
  have hpolled : polledLast (.default 1536) (incomingCall ++ quietIteration) = 1 := rfl
  refine ⟨c, _, hrun, hstep, hlen, (registered_iff hrun hp hstep rfl hnotified).mpr ⟨?_, ?_⟩⟩
  · intro r hr
    rw [hreceived] at hr
    obtain rfl := Option.some.inj hr
    simp
  · intro k cnx hk hlater
    rw [hpolled, ← hlen] at hlater
    rw [List.getElem?_eq_none hlater] at hk
    exact absurd hk (by simp)

/-- Else it is not: what the application sends to close it wakes nobody. The task is woken all
the same when the last handle to create streams goes with the `Connection`, by the channel of
the requests; an application that keeps a clone of the handle waits. -/
theorem incoming_connection_is_not_heard :
    ∃ c, (new (.default 1536)).run (incomingCall ++ [.sleep (.some true)]) = some c ∧
      c.phase = .idle ∧ c.notified = false ∧
      (∃ cnx ∈ c.context.cnxs, cnx.listed = true ∧ cnx.ends.ctx.closed = false ∧
        cnx.ends.connection = true ∧ ¬ cnx.ends.ctx.closeRecv.Watched) ∧
      ¬ Registered (.default 1536) (incomingCall ++ [.sleep (.some true)]) c := by
  have hfacts : ((new (.default 1536)).run (incomingCall ++ [.sleep (.some true)])).map
      (fun c => (c.phase, c.notified, c.context.cnxs.map fun cnx => (cnx.listed,
        cnx.ends.ctx.closed, cnx.ends.connection, cnx.ends.ctx.closeRecv))) =
      some (.idle, false, [(true, false, true, Oneshot.new)]) := rfl
  obtain ⟨c, hrun, hc⟩ := Option.map_eq_some_iff.mp hfacts
  simp only [Prod.mk.injEq] at hc
  obtain ⟨hp, hnotified, hcnxs⟩ := hc
  obtain ⟨cnx, hcnx, hmap⟩ := List.map_eq_singleton_iff.mp hcnxs
  simp only [Prod.mk.injEq] at hmap
  obtain ⟨hlisted, hopen, hconnection, hclose⟩ := hmap
  have hunheard : ¬ cnx.ends.ctx.closeRecv.Watched := by
    rw [hclose]
    simp [Oneshot.Watched, Oneshot.Terminated, Oneshot.new]
  have hmem : cnx ∈ c.context.cnxs := by
    rw [hcnx]
    exact List.mem_singleton_self _
  exact ⟨c, hrun, hp, hnotified, ⟨cnx, hmem, hlisted, hopen, hconnection, hunheard⟩,
    fun h => hunheard (h.closeRecv cnx hmem hlisted hopen)⟩

end ContextInner

end Endpoint

end PicoquicRs
