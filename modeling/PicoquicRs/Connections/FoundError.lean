import PicoquicRs.Connections.Resolution

/-!
# Where an error of the connection ends up

Until a close callback finds an error, a poll answers every request there is, and the
streams of the peer are announced to the `Connection` in order. The error then turns the
other requests down, and goes to one of two places: to whoever waits for the `Connection`,
or, if that is out, to the `Connection` after all streams announced to it
(`PicoquicRs.Connections.requests_and_error_resolved`).
-/

namespace PicoquicRs

namespace Connections

open Futures

/-- What a `Connection` makes of a message. -/
def Message.outcome : Message → Outcome
  | .newStream s => .stream s
  | .close => .none
  | .error err => .error err

namespace Ends

open Context

variable {p p' : Ends} {e : Event} {isClient : Bool} {done left : List SType} {err : Error}

/-! ### The `Connection` and what it is told -/

/-- What the `Connection` was told, and what it is going to be told. -/
def delivered (p : Ends) : List Outcome := p.outcomes ++ p.ctx.sendMsg.queue.map Message.outcome

/-- The stream a callback makes and announces, if it does. -/
def announcements (p : Ends) : Event → List StreamRef
  | .callback (.stream id _) =>
    if p.alive && id != 0 && !p.ctx.hasContext id then [p.ctx.streams.length] else []
  | _ => []

/-- **The `Connection` is held back**, and somebody waits for it. -/
structure Held (p : Ends) : Prop where
  wait : p.ctx.waitForReadyState = true
  value : p.ctx.created.value = none
  pending : p.ctx.created.pending = true
  connection : p.connection = false
  opened : p.opened = []
  outcomes : p.outcomes = []

/-- **The `Connection` is out**: the application has it, or is going to get it. -/
structure Out (p : Ends) : Prop where
  wait : p.ctx.waitForReadyState = false
  told : ∀ a ∈ p.opened ++ p.ctx.created.value.toList, a = .ok ()
  place : p.connection = true ∨ p.ctx.created.value = some (.ok ())
  first : p.ctx.isClient = true → p.opened = [] → p.ctx.created.value = some (.ok ())

/-- **There is no `Connection`**, and whoever waited for it is told the error, once. -/
structure Refused (p : Ends) (err : Error) : Prop where
  wait : p.ctx.waitForReadyState = false
  told : p.opened ++ p.ctx.created.value.toList = [.error err]
  connection : p.connection = false
  outcomes : p.outcomes = []

/-- **What most steps leave as it is.** The `Connection` may only be told more. -/
structure Settled (p p' : Ends) : Prop where
  connection : p'.connection = p.connection
  opened : p'.opened = p.opened
  value : p'.ctx.created.value = p.ctx.created.value
  pending : p.ctx.waitForReadyState = true → p'.ctx.created.pending = p.ctx.created.pending
  wait : p'.ctx.waitForReadyState = p.ctx.waitForReadyState
  role : p'.ctx.isClient = p.ctx.isClient
  outcomes : p.connection = false → p'.outcomes = p.outcomes
  delivered : ∃ extra, p'.delivered = p.delivered ++ extra

/-- A message that is sent is the last one to be delivered. -/
theorem send_queue (ch : Chan Message) (msg : Message) :
    ∃ extra, (if ch.isOpen then ch.push msg else ch).queue = ch.queue ++ extra := by
  cases ch.isOpen with
  | true => exact ⟨[msg], rfl⟩
  | false => exact ⟨[], (List.append_nil _).symm⟩

/-- Only the channel to the `Connection` has changed. -/
theorem Settled.of_queue {c' : Context} {alive : Bool} {handles : ℕ}
    {resolved : List (RequestRef × Except Error StreamRef)}
    (hv : c'.created.value = p.ctx.created.value)
    (hp : p.ctx.waitForReadyState = true → c'.created.pending = p.ctx.created.pending)
    (hw : c'.waitForReadyState = p.ctx.waitForReadyState) (hrole : c'.isClient = p.ctx.isClient)
    (hq : ∃ extra, c'.sendMsg.queue = p.ctx.sendMsg.queue ++ extra) :
    Settled p { p with ctx := c', alive, handles, resolved } where
  connection := rfl
  opened := rfl
  value := hv
  pending := hp
  wait := hw
  role := hrole
  outcomes _ := rfl
  delivered := by
    obtain ⟨extra, hq⟩ := hq
    exact ⟨extra.map Message.outcome, by
      rw [Ends.delivered, Ends.delivered, hq, List.map_append, List.append_assoc]⟩

/-- The create requests do not touch what the `Connection` is told. -/
theorem checkCreateStreamRequests_frame {c c' : Context}
    (h : c.checkCreateStreamRequests = some c') :
    c'.sendMsg = c.sendMsg ∧ c'.created = c.created ∧
      c'.waitForReadyState = c.waitForReadyState ∧ c'.isClient = c.isClient :=
  checkCreateStreamRequests_rule
    (P := fun c' => c'.sendMsg = c.sendMsg ∧ c'.created = c.created ∧
      c'.waitForReadyState = c.waitForReadyState ∧ c'.isClient = c.isClient)
    (Q := fun c' => c'.sendMsg = c.sendMsg ∧ c'.created = c.created ∧
      c'.waitForReadyState = c.waitForReadyState ∧ c'.isClient = c.isClient)
    (fun _ _ _ _ _ h _ _ _ => h) (fun _ h _ => h) ⟨rfl, rfl, rfl, rfl⟩ h

/-- **A message is polled**, or the end, or nothing is there. -/
theorem pollConnection_delivered {o : Option Outcome} {c' : Context}
    (hpoll : p.ctx.pollConnection = (o, c')) :
    ∃ sendMsg extra, c' = { p.ctx with sendMsg } ∧
      { p with ctx := c', outcomes := p.outcomes ++ o.toList }.delivered = p.delivered ++ extra ∧
      sendMsg.isOpen = p.ctx.sendMsg.isOpen ∧ sendMsg.senders = p.ctx.sendMsg.senders ∧
      (p.ctx.sendMsg.isEnded = false → extra = []) := by
  have hopen := Chan.poll_isOpen (c := p.ctx.sendMsg)
  have hsenders := Chan.poll_senders (c := p.ctx.sendMsg)
  cases hq : p.ctx.sendMsg.queue with
  | cons msg q =>
    have hrecv := Chan.poll_of_cons hq
    rw [hrecv] at hopen hsenders
    have hout : p.ctx.pollConnection = (some msg.outcome, { p.ctx with
        sendMsg := { p.ctx.sendMsg with queue := q, registered := false } }) := by
      rw [pollConnection, hrecv]
      cases msg <;> rfl
    obtain ⟨rfl, rfl⟩ := Prod.mk.inj (hout.symm.trans hpoll)
    refine ⟨_, [], rfl, ?_, hopen, hsenders, fun _ => rfl⟩
    simp [delivered, hq]
  | nil =>
    cases he : p.ctx.sendMsg.isEnded with
    | true =>
      have hrecv := Chan.poll_of_ended hq he
      rw [hrecv] at hopen hsenders
      have hout : p.ctx.pollConnection = (some .none, { p.ctx with
          sendMsg := { p.ctx.sendMsg with registered := false } }) := by
        rw [pollConnection, hrecv]
      obtain ⟨rfl, rfl⟩ := Prod.mk.inj (hout.symm.trans hpoll)
      refine ⟨_, [.none], rfl, ?_, hopen, hsenders, by simp⟩
      simp [delivered, hq]
    | false =>
      have hrecv := Chan.poll_of_waiting hq he
      rw [hrecv] at hopen hsenders
      have hout : p.ctx.pollConnection = (none, { p.ctx with
          sendMsg := { p.ctx.sendMsg with registered := true } }) := by
        rw [pollConnection, hrecv]
      obtain ⟨rfl, rfl⟩ := Prod.mk.inj (hout.symm.trans hpoll)
      refine ⟨_, [], rfl, ?_, hopen, hsenders, fun _ => rfl⟩
      simp [delivered, hq]

/-- **Every step leaves what is settled**, but a poll of the future, and what ends the wait
for the `Connection`. -/
theorem step_settled
    (hwait : p.ctx.waitForReadyState = true →
      e.endsContext = false ∧ e ≠ .callback .almostReady)
    (hr : p.ctx.created.receiver = true) (hw : p.waits e = true) (hne : e ≠ .pollCreated)
    (hstep : p.step e = some p') : Settled p p' ∧ p'.ctx.created.receiver = true := by
  rw [step] at hstep
  have hsame : ∃ extra, p.ctx.sendMsg.queue = p.ctx.sendMsg.queue ++ extra :=
    ⟨[], (List.append_nil _).symm⟩
  have hout : e.endsContext = true → p.ctx.waitForReadyState = false := fun hend => by
    by_contra hheld
    exact absurd (hend.symm.trans (hwait (by simpa using hheld)).1) (by simp)
  cases hat : atContext e with
  | false =>
    rw [if_neg (by simp [hat])] at hstep
    rcases stepApplication_cases hw hstep with ⟨stype, rfl, -, rfl⟩ | ⟨-,
      ⟨r, o, ctx, rfl, hpoll, rfl⟩ | ⟨a, ctx, rfl, -⟩ | ⟨o, ctx, rfl, hconn, hpoll, rfl⟩ |
        ⟨streams, recv, handles, -, -, -, -, rfl⟩⟩
    · rcases newStreamHandle_spec p.ctx stype with ⟨-, hc⟩ | ⟨-, hc⟩ <;> rw [hc] <;>
        exact ⟨.of_queue rfl (fun _ => rfl) rfl rfl hsame, hr⟩
    · obtain rfl := (congrArg Prod.snd hpoll).symm
      obtain ⟨answers, hframe, -⟩ := pollRequest_frame p.ctx r
      rw [hframe]
      exact ⟨.of_queue rfl (fun _ => rfl) rfl rfl hsame, hr⟩
    · exact absurd rfl hne
    · obtain ⟨sendMsg, extra, rfl, hdel, -⟩ := pollConnection_delivered hpoll
      exact ⟨⟨rfl, rfl, rfl, fun _ => rfl, rfl, rfl, fun hno => by simp [hconn] at hno,
        extra, hdel⟩, hr⟩
    · exact ⟨.of_queue rfl (fun _ => rfl) rfl rfl hsame, hr⟩
  | true =>
    rw [if_pos hat] at hstep
    split at hstep
    · cases e with
      | callback cb =>
        obtain ⟨c, hc, hstep⟩ := Option.bind_eq_some_iff.mp hstep
        obtain rfl := Option.some.inj hstep
        rcases handleCallback_cases hr hc with ⟨rfl, hheld, -⟩ | ⟨-, -, streams, rfl, hl⟩ |
          ⟨id, scb, streams, -, -, -, rfl, hl⟩
        · exact absurd rfl (hwait hheld).2
        · exact ⟨.of_queue rfl (fun _ => rfl) rfl rfl hsame, hr⟩
        · exact ⟨.of_queue rfl (fun _ => rfl) rfl rfl (send_queue _ _), hr⟩
      | close codes =>
        obtain ⟨c, hc, hstep⟩ := Option.bind_eq_some_iff.mp hstep
        obtain rfl := Option.some.inj hstep
        obtain ⟨c₁, hc₁, hc⟩ := Option.bind_eq_some_iff.mp hc
        obtain ⟨streams₁, rfl, -⟩ := close_spec hc
        have h₁ : c₁.created = p.ctx.created ∧ c₁.waitForReadyState = p.ctx.waitForReadyState ∧
            c₁.isClient = p.ctx.isClient ∧
            ∃ extra, c₁.sendMsg.queue = p.ctx.sendMsg.queue ++ extra := by
          cases herr : codes.error.1 with
          | none =>
            obtain rfl := checkAndHandleError_none herr hc₁
            exact ⟨rfl, rfl, rfl, hsame⟩
          | some err =>
            obtain ⟨streams, chan, c₂, -, -, -, rfl, ⟨hheld, -⟩ | ⟨-, rfl⟩⟩ :=
              checkAndHandleError_found herr hc₁
            · exact absurd (hheld.symm.trans (hout rfl)) (by simp)
            · exact ⟨rfl, rfl, rfl, send_queue _ _⟩
        obtain ⟨hcreated, hw', hrole, extra, hq⟩ := h₁
        obtain ⟨extra', hq'⟩ := send_queue c₁.sendMsg .close
        refine ⟨.of_queue (congrArg Oneshot.value hcreated)
          (fun _ => congrArg Oneshot.pending hcreated) hw' hrole ⟨extra ++ extra', ?_⟩,
          (congrArg Oneshot.receiver hcreated).trans hr⟩
        rw [← List.append_assoc, ← hq]
        exact hq'
      | poll =>
        obtain ⟨⟨r, c⟩, hc, hstep⟩ := Option.bind_eq_some_iff.mp hstep
        obtain rfl := Option.some.inj hstep
        rcases poll_spec hc with ⟨-, rfl⟩ | ⟨-, streams, c₂, -, hc₂, hend⟩
        · exact ⟨.of_queue rfl (fun _ => rfl) rfl rfl hsame, hr⟩
        · obtain ⟨hsend, hcreated, hw', hrole⟩ := checkCreateStreamRequests_frame hc₂
          rcases hend with ⟨-, hclose⟩ | ⟨-, rfl⟩
          · obtain ⟨streams', rfl, -⟩ := close_spec hclose
            refine ⟨.of_queue (congrArg Oneshot.value hcreated)
              (fun _ => congrArg Oneshot.pending hcreated) hw' hrole ?_,
              (congrArg Oneshot.receiver hcreated).trans hr⟩
            have hq := send_queue c₂.sendMsg .close
            rw [hsend] at hq
            exact hsend.symm ▸ hq
          · exact ⟨.of_queue (congrArg Oneshot.value hcreated)
              (fun _ => congrArg Oneshot.pending hcreated) hw' hrole
              ⟨[], by rw [hsend, List.append_nil]⟩, (congrArg Oneshot.receiver hcreated).trans hr⟩
      | drop =>
        obtain ⟨c, hc, hstep⟩ := Option.bind_eq_some_iff.mp hstep
        obtain rfl := Option.some.inj hstep
        obtain ⟨streams, c₁, -, ⟨hheld, -⟩ | ⟨-, rfl⟩, rfl⟩ := drop_spec hc
        · exact absurd (hheld.symm.trans (hout rfl)) (by simp)
        · exact ⟨.of_queue rfl (fun hheld => absurd (hheld.symm.trans (hout rfl)) (by simp)) rfl rfl
            hsame, hr⟩
      | _ => simp [atContext] at hat
    · obtain rfl := Option.some.inj hstep
      exact ⟨.of_queue rfl (fun _ => rfl) rfl rfl hsame, hr⟩

/-- The future is polled, and there is something. -/
theorem step_pollCreated_of_value {a : Except Error Unit} (hv : p.ctx.created.value = some a)
    (hstep : p.step .pollCreated = some p') :
    ∃ created connection, p' = { p with
        ctx := { p.ctx with created }, connection, opened := p.opened ++ [a] } ∧
      created.value = none ∧ created.receiver = p.ctx.created.receiver ∧
      (a = .ok () → connection = true) ∧ (∀ err, a = .error err → connection = p.connection) := by
  obtain ⟨o, hpoll, hvalue, hreceiver⟩ : ∃ o, p.ctx.created.poll = (.ok (.ready a), o) ∧
      o.value = none ∧ o.receiver = p.ctx.created.receiver :=
    ⟨⟨none, p.ctx.created.pending, p.ctx.created.receiver, false⟩,
      by rw [Oneshot.poll, hv], rfl, rfl⟩
  have hcreated : p.ctx.pollCreated = (some a, { p.ctx with created := o }) := by
    rw [pollCreated, hpoll]
  rw [step, if_neg (by simp [atContext]), stepApplication, hcreated] at hstep
  obtain rfl := Option.some.inj hstep
  refine ⟨o, _, rfl, hvalue, hreceiver, ?_, ?_⟩
  · rintro rfl
    rfl
  · rintro err rfl
    rfl

/-- The future is polled, and there is nothing yet. -/
theorem step_pollCreated_of_pending (hv : p.ctx.created.value = none)
    (hp : p.ctx.created.pending = true) (hstep : p.step .pollCreated = some p') :
    ∃ created, p' = { p with ctx := { p.ctx with created } } ∧ created.value = none ∧
      created.pending = true := by
  obtain ⟨o, hpoll, hvalue, hpending⟩ : ∃ o, p.ctx.created.poll = (.ok .notReady, o) ∧
      o.value = none ∧ o.pending = true :=
    ⟨⟨none, true, p.ctx.created.receiver, true⟩, by simp only [Oneshot.poll, hv, hp, if_true],
      rfl, rfl⟩
  have hcreated : p.ctx.pollCreated = (none, { p.ctx with created := o }) := by
    rw [pollCreated, hpoll]
  rw [step, if_neg (by simp [atContext]), stepApplication, hcreated] at hstep
  obtain rfl := Option.some.inj hstep
  exact ⟨o, by simp, hvalue, hpending⟩

/-- **The `Connection` stays held back**, until it is ready or the context ends. -/
theorem Held.step (h : p.Held) (hr : p.ctx.created.receiver = true) (hw : p.waits e = true)
    (hno : e.endsContext = false) (hne : e ≠ .callback .almostReady)
    (hstep : p.step e = some p') : p'.Held := by
  by_cases hpoll : e = .pollCreated
  · subst hpoll
    obtain ⟨created, rfl, hvalue, hpending⟩ :=
      step_pollCreated_of_pending h.value h.pending hstep
    exact ⟨h.wait, hvalue, hpending, h.connection, h.opened, h.outcomes⟩
  · obtain ⟨hs, -⟩ := step_settled (fun _ => ⟨hno, hne⟩) hr hw hpoll hstep
    exact ⟨hs.wait.trans h.wait, hs.value.trans h.value, (hs.pending h.wait).trans h.pending,
      hs.connection.trans h.connection, hs.opened.trans h.opened,
      (hs.outcomes h.connection).trans h.outcomes⟩

/-- **The connection is ready**, and the `Connection` goes out. -/
theorem Held.ready (h : p.Held) (ha : p.alive = true) (hr : p.ctx.created.receiver = true)
    (hstep : p.step (.callback .almostReady) = some p') : p'.Out := by
  rw [Ends.step, if_pos (by rfl), if_pos ha] at hstep
  obtain ⟨c, hc, hstep⟩ := Option.bind_eq_some_iff.mp hstep
  obtain rfl := Option.some.inj hstep
  have hvalue : (p.ctx.created.send (.ok ())).value = some (.ok ()) := by
    rw [Oneshot.send, hr]
    rfl
  rcases handleCallback_cases hr hc with ⟨-, -, rfl⟩ | ⟨hno, -⟩ | ⟨id, scb, streams, hcb, -⟩
  · refine ⟨rfl, ?_, Or.inr hvalue, fun _ _ => hvalue⟩
    rw [h.opened, hvalue]
    simp
  · exact absurd (h.wait.symm.trans (hno rfl)) (by simp)
  · exact absurd hcb (by simp)

/-- **The error is found while the `Connection` is held back**: whoever waits is told. -/
theorem Held.close {codes : Codes} (h : p.Held) (ha : p.alive = true)
    (hr : p.ctx.created.receiver = true) (herr : codes.error.1 = some err)
    (hstep : p.step (.close codes) = some p') :
    p'.Refused err ∧ p'.ctx.created.receiver = true := by
  rw [Ends.step, if_pos (by rfl), if_pos ha] at hstep
  obtain ⟨c, hc, hstep⟩ := Option.bind_eq_some_iff.mp hstep
  obtain rfl := Option.some.inj hstep
  obtain ⟨c₁, hc₁, hc⟩ := Option.bind_eq_some_iff.mp hc
  obtain ⟨streams, rfl, -⟩ := close_spec hc
  obtain ⟨streams₁, chan, c₂, -, -, -, rfl, ⟨-, hdrop⟩ | ⟨hno, -⟩⟩ :=
    checkAndHandleError_found herr hc₁
  · obtain ⟨streams₂, rfl, -⟩ := dropConnection_spec hdrop
    refine ⟨⟨rfl, ?_, h.connection, h.outcomes⟩, hr⟩
    change p.opened ++ (p.ctx.created.send (.error err)).value.toList = _
    rw [h.opened, Oneshot.send, hr]
    rfl
  · exact absurd (h.wait.symm.trans hno) (by simp)

/-- **The `Connection` is told the error**, and then the end. -/
theorem close_delivered {codes : Codes} (ha : p.alive = true)
    (ho : p.ctx.sendMsg.isOpen = true) (hwait : p.ctx.waitForReadyState = false)
    (herr : codes.error.1 = some err) (hstep : p.step (.close codes) = some p') :
    p'.delivered = p.delivered ++ [.error err, .none] := by
  rw [Ends.step, if_pos (by rfl), if_pos ha] at hstep
  obtain ⟨c, hc, hstep⟩ := Option.bind_eq_some_iff.mp hstep
  obtain rfl := Option.some.inj hstep
  obtain ⟨c₁, hc₁, hc⟩ := Option.bind_eq_some_iff.mp hc
  obtain ⟨streams, rfl, -⟩ := close_spec hc
  obtain ⟨streams₁, chan, c₂, -, -, -, rfl, ⟨hheld, -⟩ | ⟨-, rfl⟩⟩ :=
    checkAndHandleError_found herr hc₁
  · exact absurd (hheld.symm.trans hwait) (by simp)
  · simp [delivered, ho, Message.outcome]

/-- **The `Connection` stays out**, and is only told more. -/
theorem Out.step (h : p.Out) (hr : p.ctx.created.receiver = true) (hw : p.waits e = true)
    (hstep : p.step e = some p') :
    p'.Out ∧ p'.ctx.created.receiver = true ∧ ∃ extra, p'.delivered = p.delivered ++ extra := by
  by_cases hpoll : e = .pollCreated
  · subst hpoll
    rw [waits, Bool.and_eq_true, List.isEmpty_iff] at hw
    have hvalue := h.first hw.1 hw.2
    obtain ⟨created, connection, rfl, hnone, hrecv, hout, -⟩ :=
      step_pollCreated_of_value hvalue hstep
    refine ⟨⟨h.wait, ?_, Or.inl (hout rfl), ?_⟩, hrecv.trans hr, [], (List.append_nil _).symm⟩
    · rw [hw.2, hnone]
      simp
    · rintro - hempty
      exact absurd hempty (by simp)
  · obtain ⟨hs, hr'⟩ := step_settled
      (fun hheld => absurd (hheld.symm.trans h.wait) (by simp)) hr hw hpoll hstep
    refine ⟨⟨hs.wait.trans h.wait, ?_, ?_, ?_⟩, hr', hs.delivered⟩
    · rw [hs.opened, hs.value]
      exact h.told
    · rw [hs.connection, hs.value]
      exact h.place
    · rw [hs.role, hs.opened, hs.value]
      exact h.first

/-- **There stays no `Connection`**, and the error is told once. -/
theorem Refused.step (h : p.Refused err) (hr : p.ctx.created.receiver = true)
    (hw : p.waits e = true) (hstep : p.step e = some p') :
    p'.Refused err ∧ p'.ctx.created.receiver = true := by
  by_cases hpoll : e = .pollCreated
  · subst hpoll
    rw [waits, Bool.and_eq_true, List.isEmpty_iff] at hw
    have htold := h.told
    rw [hw.2, List.nil_append] at htold
    obtain ⟨created, connection, rfl, hnone, hrecv, -, hkept⟩ :=
      step_pollCreated_of_value (a := .error err) (by simpa using htold) hstep
    refine ⟨⟨h.wait, ?_, (hkept err rfl).trans h.connection, h.outcomes⟩, hrecv.trans hr⟩
    rw [hw.2, hnone]
    rfl
  · obtain ⟨hs, hr'⟩ := step_settled
      (fun hheld => absurd (hheld.symm.trans h.wait) (by simp)) hr hw hpoll hstep
    refine ⟨⟨hs.wait.trans h.wait, ?_, hs.connection.trans h.connection,
      (hs.outcomes h.connection).trans h.outcomes⟩, hr'⟩
    rw [hs.opened, hs.value]
    exact h.told

/-! ### Until the error is found -/

/-- **The context works**: it serves the requests, and its channel to the `Connection` has
both ends. -/
structure Working (p : Ends) (isClient : Bool) (done left : List SType) : Prop where
  alive : p.alive = true
  receiver : p.ctx.created.receiver = true
  isOpen : p.ctx.sendMsg.isOpen = true
  senders : p.ctx.sendMsg.senders = 1
  serving : p.ctx.Serving p.resolved isClient done left

theorem announcements_eq_nil (he : atContext e = false) : p.announcements e = [] := by
  cases e <;> first | rfl | simp [atContext] at he

/-- **The `Connection` is told of the new streams** and of nothing else, until the context
ends. -/
theorem Working.step (h : p.Working isClient done left) (hw : p.waits e = true)
    (hno : e.endsContext = false) (hstep : p.step e = some p') :
    p'.Working isClient (if e.isPoll then done ++ left else done)
        (if e.isPoll then [] else left ++ p.requests e) ∧
      p'.delivered = p.delivered ++ (p.announcements e).map .stream := by
  have hserving := step_serving h.serving h.alive h.receiver hw hno hstep
  rw [Ends.step] at hstep
  cases hat : atContext e with
  | false =>
    rw [if_neg (by simp [hat])] at hstep
    rw [announcements_eq_nil hat, List.map_nil, List.append_nil]
    rcases stepApplication_cases hw hstep with ⟨stype, rfl, -, rfl⟩ | ⟨-,
      ⟨r, o, ctx, rfl, hpoll, rfl⟩ | ⟨a, ctx, rfl, hpoll, rfl⟩ | ⟨o, ctx, rfl, -, hpoll, rfl⟩ |
        ⟨streams, recv, handles, -, -, -, -, rfl⟩⟩
    · rcases newStreamHandle_spec p.ctx stype with ⟨-, hc⟩ | ⟨-, hc⟩ <;> rw [hc] at hserving ⊢ <;>
        exact ⟨⟨h.alive, h.receiver, h.isOpen, h.senders, hserving⟩, rfl⟩
    · obtain rfl := (congrArg Prod.snd hpoll).symm
      obtain ⟨answers, hframe, -⟩ := pollRequest_frame p.ctx r
      rw [hframe] at hserving ⊢
      exact ⟨⟨h.alive, h.receiver, h.isOpen, h.senders, hserving⟩, rfl⟩
    · obtain rfl := (congrArg Prod.snd hpoll).symm
      obtain ⟨created, hframe, hrecv⟩ := pollCreated_frame p.ctx
      rw [hframe] at hserving ⊢
      exact ⟨⟨h.alive, hrecv.trans h.receiver, h.isOpen, h.senders, hserving⟩, rfl⟩
    · obtain ⟨sendMsg, extra, rfl, hdel, ho, hs, hend⟩ := pollConnection_delivered hpoll
      rw [hend (by simp [Chan.isEnded, h.isOpen, h.senders]), List.append_nil] at hdel
      exact ⟨⟨h.alive, h.receiver, ho.trans h.isOpen, hs.trans h.senders, hserving⟩, hdel⟩
    · exact ⟨⟨h.alive, h.receiver, h.isOpen, h.senders, hserving⟩, rfl⟩
  | true =>
    rw [if_pos hat, if_pos h.alive] at hstep
    cases e with
    | callback cb =>
      obtain ⟨c, hc, hstep⟩ := Option.bind_eq_some_iff.mp hstep
      obtain rfl := Option.some.inj hstep
      rcases handleCallback_cases h.receiver hc with ⟨rfl, -, rfl⟩ | ⟨-, hhas, streams, rfl, -⟩ |
        ⟨id, scb, streams, rfl, hid, hhas, rfl, -⟩
      · exact ⟨⟨h.alive, h.receiver, h.isOpen, h.senders, hserving⟩, (List.append_nil _).symm⟩
      · refine ⟨⟨h.alive, h.receiver, h.isOpen, h.senders, hserving⟩, ?_⟩
        have hnone : p.announcements (.callback cb) = [] := by
          cases cb with
          | almostReady => rfl
          | stream id scb =>
            rw [announcements]
            by_cases hid : id = 0
            · simp [hid]
            · simp [hhas id scb rfl hid]
        rw [hnone]
        exact (List.append_nil _).symm
      · rw [h.isOpen, if_pos rfl] at hserving ⊢
        refine ⟨⟨h.alive, h.receiver, h.isOpen, h.senders, hserving⟩, ?_⟩
        simp [delivered, announcements, h.alive, hid, hhas, Message.outcome]
    | poll =>
      obtain ⟨⟨r, c⟩, hc, hstep⟩ := Option.bind_eq_some_iff.mp hstep
      obtain rfl := Option.some.inj hstep
      obtain ⟨-, hsend, hcreated, -⟩ := h.serving.poll hc
      refine ⟨⟨h.alive, (congrArg Oneshot.receiver hcreated).trans h.receiver,
        (congrArg Chan.isOpen hsend).trans h.isOpen,
        (congrArg Chan.senders hsend).trans h.senders, hserving⟩, ?_⟩
      rw [delivered, hsend]
      exact (List.append_nil _).symm
    | close codes => simp [Event.endsContext] at hno
    | drop => simp [Event.endsContext] at hno
    | _ => simp [atContext] at hat

/-- The streams announced in a run, in order. -/
abbrev announced (isClient : Bool) (es : List Event) : List StreamRef :=
  Trace.log Ends.step announcements (new isClient) es

/-- **A poll has reached the request.** -/
def Reached (isClient : Bool) (es : List Event) (r : RequestRef) : Prop :=
  ∃ es₁ es₂, es = es₁ ++ .poll :: es₂ ∧ r < (requestsOf isClient es₁).length

/-- **The outgoing connection is not ready yet.** -/
def Unready (isClient : Bool) (es : List Event) : Prop :=
  isClient = true ∧ Event.callback .almostReady ∉ es

@[simp] theorem not_reached_nil {r : RequestRef} : ¬ Reached isClient [] r := by
  rintro ⟨es₁, es₂, heq, -⟩
  exact absurd heq (by simp)

theorem reached_concat {es : List Event} {r : RequestRef} :
    Reached isClient (es ++ [e]) r ↔
      (e = .poll ∧ r < (requestsOf isClient es).length) ∨ Reached isClient es r := by
  constructor
  · rintro ⟨es₁, es₂, heq, hlt⟩
    rcases List.eq_nil_or_concat es₂ with rfl | ⟨es₃, e', rfl⟩
    · obtain ⟨rfl, he⟩ := List.append_inj' heq rfl
      exact Or.inl ⟨List.head_eq_of_cons_eq he, hlt⟩
    · rw [List.concat_eq_append, ← List.cons_append, ← List.append_assoc] at heq
      obtain ⟨rfl, -⟩ := List.append_inj' heq rfl
      exact Or.inr ⟨es₁, es₃, rfl, hlt⟩
  · rintro (⟨rfl, hlt⟩ | ⟨es₁, es₂, rfl, hlt⟩)
    · exact ⟨es, [], rfl, hlt⟩
    · exact ⟨es₁, es₂ ++ [e], by rw [List.append_assoc, List.cons_append], hlt⟩

theorem unready_concat {es : List Event} :
    Unready isClient (es ++ [e]) ↔ Unready isClient es ∧ e ≠ .callback .almostReady := by
  simp only [Unready, List.mem_append, List.mem_singleton, not_or, and_assoc, ne_eq, eq_comm]

/-- **Before the error**: the requests that a poll has reached got their streams, the
`Connection` was told of the streams of the peer, and it is held back until it is ready. -/
structure Before (isClient : Bool) (es : List Event) (p : Ends) : Prop where
  served : ∃ done left, done ++ left = requestsOf isClient es ∧
    (∀ r, r < done.length ↔ Reached isClient es r) ∧ p.Working isClient done left
  delivered : p.delivered = (announced isClient es).map .stream
  held : Unready isClient es → p.Held
  out : ¬ Unready isClient es → p.Out

theorem new_before (isClient : Bool) : Before isClient [] (new isClient) where
  served := by
    refine ⟨[], [], rfl, fun r => by simp, rfl, ?_, rfl, rfl, ⟨rfl, rfl, rfl, rfl, rfl⟩, rfl, rfl,
      rfl, fun r t hr => by simp at hr, fun r _ => ⟨rfl, rfl, rfl⟩⟩
    cases isClient <;> rfl
  delivered := rfl
  held := by
    rintro ⟨rfl, -⟩
    exact ⟨rfl, rfl, rfl, rfl, rfl, rfl⟩
  out h := by
    obtain rfl : isClient = false := by
      by_contra hc
      exact h ⟨by simpa using hc, List.not_mem_nil⟩
    exact ⟨rfl, by simp [new, Context.new, Oneshot.new, Oneshot.dropSender], Or.inl rfl,
      fun hc => absurd hc (by simp [new, Context.new])⟩

theorem Before.step {es : List Event} (hrun : (new isClient).run es = some p)
    (h : Before isClient es p) (hw : p.waits e = true) (hno : e.endsContext = false)
    (hstep : p.step e = some p') : Before isClient (es ++ [e]) p' := by
  obtain ⟨done, left, hall, hreached, hwork⟩ := h.served
  obtain ⟨hwork', hdel⟩ := hwork.step hw hno hstep
  have hreqs : requestsOf isClient (es ++ [e]) = requestsOf isClient es ++ p.requests e := by
    rw [requestsOf, requestsOf, Trace.log_append hrun, Trace.log_singleton]
  refine ⟨?_, ?_, fun hun => ?_, fun hun => ?_⟩
  · cases hpoll : e.isPoll with
    | true =>
      obtain rfl : e = .poll := by cases e <;> first | rfl | simp [Event.isPoll] at hpoll
      refine ⟨done ++ left, [], ?_, fun r => ?_, hwork'⟩
      · rw [List.append_nil, hall, hreqs]
        exact (List.append_nil _).symm
      · rw [reached_concat, hall, ← hreached r]
        constructor
        · exact fun hlt => Or.inl ⟨rfl, hlt⟩
        · rintro (⟨-, hlt⟩ | hlt)
          · exact hlt
          · rw [← hall, List.length_append]
            exact Nat.lt_add_right _ hlt
    | false =>
      rw [hpoll, if_neg Bool.false_ne_true, if_neg Bool.false_ne_true] at hwork'
      refine ⟨done, left ++ p.requests e, ?_, fun r => ?_, hwork'⟩
      · rw [← List.append_assoc, hall, hreqs]
      · rw [reached_concat, ← hreached r]
        refine ⟨Or.inr, ?_⟩
        rintro (⟨rfl, -⟩ | hlt)
        · simp [Event.isPoll] at hpoll
        · exact hlt
  · rw [hdel, h.delivered, ← List.map_append, announced, announced, Trace.log_append hrun,
      Trace.log_singleton]
  · obtain ⟨hun, hne⟩ := unready_concat.mp hun
    exact (h.held hun).step hwork.receiver hw hno hne hstep
  · by_cases hbefore : Unready isClient es
    · obtain rfl : e = .callback .almostReady := by
        by_contra hne
        exact hun (unready_concat.mpr ⟨hbefore, hne⟩)
      exact (h.held hbefore).ready hwork.alive hwork.receiver hstep
    · exact ((h.out hbefore).step hwork.receiver hw hstep).1

theorem run_before {es : List Event}
    (hw : Trace.Obeys Ends.step (fun p e => p.waits e = true) (new isClient) es)
    (hno : ∀ e ∈ es, e.endsContext = false) (hrun : (new isClient).run es = some p) :
    Before isClient es p :=
  Trace.run_history
    (fun es₁ e s s' hpre hrun h hw hstep =>
      h.step hrun hw (hno e (hpre.subset (by simp))) hstep)
    (new_before isClient) hw hrun

/-! ### Once the error is found -/

/-- **After the error** the requests fail, and what was settled about the `Connection`
stays. -/
theorem run_failing {es : List Event} (h : p.ctx.Failing p.resolved isClient done left err)
    (hr : p.ctx.created.receiver = true) (hsettled : p.Refused err ∨ p.Out)
    (hw : Trace.Obeys Ends.step (fun p e => p.waits e = true) p es)
    (hconst : ∀ codes, Event.close codes ∈ es → codes.error.1 = some err)
    (hrun : p.run es = some p') :
    p'.ctx.Failing p'.resolved isClient done (left ++ Trace.log Ends.step requests p es) err ∧
      (p.Refused err → p'.Refused err) ∧
      (p.Out → p'.Out ∧ ∃ extra, p'.delivered = p.delivered ++ extra) := by
  suffices hafter : (p'.ctx.Failing p'.resolved isClient done
      (left ++ Trace.log Ends.step requests p es) err ∧ p'.ctx.created.receiver = true) ∧
      (p.Refused err → p'.Refused err) ∧
      (p.Out → p'.Out ∧ ∃ extra, p'.delivered = p.delivered ++ extra) from
    ⟨hafter.1.1, hafter.2⟩
  refine Trace.run_history
    (R := fun es p' => (p'.ctx.Failing p'.resolved isClient done
      (left ++ Trace.log Ends.step requests p es) err ∧ p'.ctx.created.receiver = true) ∧
      (p.Refused err → p'.Refused err) ∧
      (p.Out → p'.Out ∧ ∃ extra, p'.delivered = p.delivered ++ extra)) ?_ ?_ hw hrun
  · rintro es₁ e s s' hpre hrun ⟨⟨h, hr⟩, hrefused, hout⟩ hw hstep
    have hfail := step_failing h hr hw
      (fun codes he => hconst codes (hpre.subset (by simp [he]))) hstep
    rw [List.append_assoc] at hfail
    rw [Trace.log_append hrun, Trace.log_singleton]
    refine ⟨⟨hfail, ?_⟩, fun hp => ((hrefused hp).step hr hw hstep).1, fun hp => ?_⟩
    · rcases hsettled with hp | hp
      · exact ((hrefused hp).step hr hw hstep).2
      · exact ((hout hp).1.step hr hw hstep).2.1
    · obtain ⟨hs, extra, hextra⟩ := hout hp
      obtain ⟨hs', -, extra', hextra'⟩ := hs.step hr hw hstep
      exact ⟨hs', extra ++ extra', by rw [hextra', hextra, List.append_assoc]⟩
  · refine ⟨⟨?_, hr⟩, id, fun hp => ⟨hp, [], (List.append_nil _).symm⟩⟩
    rw [Trace.log, List.append_nil]
    exact h

end Ends

/-- **Every create request is answered once, and the error goes to one place.** In a run in
which a close callback finds the error `err` after the events `es₁`:

* nothing panics, unless picoquic gives no buffer where it asks for data, or calls back for a
  stream of one's own that was not created, or the ids run out;
* a request gets a stream of its type if a poll of the context reached it before the
  error, and the error otherwise – whether it waited in the queue or was made later, also
  when the context was dropped –, and nothing else;
* if the outgoing connection was not ready yet, whoever waits for the `Connection` is told the
  error, and there is never a `Connection`;
* else the `Connection` is out, and it is told the error right after the streams announced
  to it. -/
theorem requests_and_error_resolved {isClient : Bool} {es₁ es₂ : List Event} {codes : Codes}
    {err : Error} (herr : codes.error.1 = some err)
    (hno : ∀ e ∈ es₁, e.endsContext = false)
    (hconst : ∀ codes', Event.close codes' ∈ es₂ → codes'.error.1 = some err)
    (hw : Trace.Obeys Ends.step (fun p e => p.waits e = true) (new isClient)
      (es₁ ++ .close codes :: es₂)) :
    (Trace.Obeys Ends.step (fun p e => p.ownCreated e = true) (new isClient)
        (es₁ ++ .close codes :: es₂) →
      (Ends.requestsOf isClient (es₁ ++ .close codes :: es₂)).length ≤ 2 ^ 62 →
      (∀ e ∈ es₁ ++ .close codes :: es₂, ¬ e.isNull) →
      ∃ p, (new isClient).run (es₁ ++ .close codes :: es₂) = some p) ∧
    ∀ p, (new isClient).run (es₁ ++ .close codes :: es₂) = some p →
      (∀ r stype, (Ends.requestsOf isClient (es₁ ++ .close codes :: es₂))[r]? = some stype →
        (Ends.Reached isClient es₁ r → p.ctx.GotStream p.resolved r stype) ∧
        (¬ Ends.Reached isClient es₁ r → p.ctx.answersTo p.resolved r = [.error err])) ∧
      (Ends.Unready isClient es₁ → p.Refused err) ∧
      (¬ Ends.Unready isClient es₁ → p.Out ∧
        ∃ rest, p.delivered = (Ends.announced isClient es₁).map .stream ++ .error err :: rest) := by
  refine ⟨Ends.run_total, fun p hrun => ?_⟩
  rw [Ends.run, Trace.run_append] at hrun
  obtain ⟨p₁, hrun₁, hrun⟩ := Option.bind_eq_some_iff.mp hrun
  obtain ⟨p₂, hclose, hrun₂⟩ := Option.bind_eq_some_iff.mp hrun
  obtain ⟨hw₁, hw₂⟩ := Trace.obeys_append.mp hw
  have hw₂ := (hw₂ p₁ hrun₁).2 p₂ hclose
  have hbefore := Ends.run_before hw₁ hno hrun₁
  obtain ⟨done, left, hall, hreached, hwork⟩ := hbefore.served
  -- the close turns the requests down, and settles what becomes of the `Connection`
  have hfail : p₂.ctx.Failing p₂.resolved isClient done left err := by
    have hstep := hclose
    rw [Ends.step, if_pos (by rfl), if_pos hwork.alive] at hstep
    obtain ⟨c, hc, hstep⟩ := Option.bind_eq_some_iff.mp hstep
    obtain rfl := Option.some.inj hstep
    exact hwork.serving.handleClose herr hc
  have hrefused : Ends.Unready isClient es₁ → p₂.Refused err ∧ p₂.ctx.created.receiver = true :=
    fun hun => (hbefore.held hun).close hwork.alive hwork.receiver herr hclose
  have hout : ¬ Ends.Unready isClient es₁ → p₂.Out ∧ p₂.ctx.created.receiver = true := fun hun =>
    have h := (hbefore.out hun).step hwork.receiver rfl hclose
    ⟨h.1, h.2.1⟩
  have hsettled : (p₂.Refused err ∨ p₂.Out) ∧ p₂.ctx.created.receiver = true := by
    by_cases hun : Ends.Unready isClient es₁
    · exact ⟨Or.inl (hrefused hun).1, (hrefused hun).2⟩
    · exact ⟨Or.inr (hout hun).1, (hout hun).2⟩
  obtain ⟨hfailing, hkeep, hkeep'⟩ :=
    Ends.run_failing hfail hsettled.2 hsettled.1 hw₂ hconst hrun₂
  have hreqs : Ends.requestsOf isClient (es₁ ++ .close codes :: es₂) =
      done ++ (left ++ Trace.log Ends.step Ends.requests p₂ es₂) := by
    rw [Ends.requestsOf, Trace.log_append hrun₁, ← List.append_assoc, hall, Trace.log, hclose]
    rfl
  refine ⟨fun r stype hr => ⟨fun hreach => ?_, fun hreach => ?_⟩, fun hun => ?_, fun hun => ?_⟩
  · rw [hreqs, List.getElem?_append_left ((hreached r).mpr hreach)] at hr
    exact hfailing.created r stype hr
  · refine hfailing.failed r (Nat.le_of_not_lt fun hlt => hreach ((hreached r).mp hlt)) ?_
    have hlt := (List.getElem?_eq_some_iff.mp hr).choose
    rwa [hreqs, List.length_append, ← hfailing.numbered.answers] at hlt
  · exact hkeep (hrefused hun).1
  · obtain ⟨hp, extra, hextra⟩ := hkeep' (hout hun).1
    refine ⟨hp, .none :: extra, ?_⟩
    rw [hextra, Ends.close_delivered hwork.alive hwork.isOpen (hbefore.out hun).wait herr hclose,
      hbefore.delivered, List.append_assoc]
    rfl

/-- A server asked for streams before a poll, while the request waits, after the error and
after the drop; and a client that is refused. -/
theorem requests_and_error_resolved_of_server_and_client :
    (∃ p, (new false).run [.newStream .bidirectional, .poll, .callback (.stream 4 (.data [1] .other)),
        .cloneHandle, .newStream .unidirectional, .close ⟨0, 7, fun _ => false⟩,
        .newStream .unidirectional, .poll, .drop, .newStream .bidirectional, .pollRequest 1,
        .pollConnection, .pollConnection, .pollConnection] = some p ∧
      p.ctx.GotStream p.resolved 0 .bidirectional ∧
      (∀ r ∈ [1, 2, 3], p.ctx.answersTo p.resolved r = [.error (ErrorKind.unknown : Error)]) ∧
      p.outcomes = [.stream 1, .error ErrorKind.unknown, .none]) ∧
    ∃ p, (new true).run [.pollCreated, .poll, .close ⟨3, 0, fun code => code == 3⟩, .pollCreated,
        .poll, .drop] = some p ∧ p.Refused (ErrorKind.tlsHandshakeError : Error) := by
  refine ⟨⟨_, rfl, ?_⟩, _, rfl, ?_⟩
  · have h := (@requests_and_error_resolved false
      [.newStream .bidirectional, .poll, .callback (.stream 4 (.data [1] .other)),
        .cloneHandle, .newStream .unidirectional]
      [.newStream .unidirectional, .poll, .drop, .newStream .bidirectional, .pollRequest 1,
        .pollConnection, .pollConnection, .pollConnection]
      ⟨0, 7, fun _ => false⟩ ErrorKind.unknown rfl (by decide) (by simp) (by decide)).2 _ rfl
    have hreached : ∀ r, Ends.Reached false ([] ++ [.newStream .bidirectional] ++ [.poll] ++
        [.callback (.stream 4 (.data [1] .other))] ++ [.cloneHandle] ++
        [.newStream .unidirectional]) r ↔ r < 1 := by
      intro r
      simp only [Ends.reached_concat, Ends.not_reached_nil, reduceCtorEq, false_and, false_or,
        or_false, true_and]
      exact Iff.rfl
    refine ⟨(h.1 0 .bidirectional rfl).1 ((hreached 0).mpr (by decide)), ?_, rfl⟩
    intro r hr
    rw [List.mem_cons, List.mem_cons, List.mem_singleton] at hr
    rcases hr with rfl | rfl | rfl
    · exact (h.1 1 .unidirectional rfl).2 fun hr => absurd ((hreached 1).mp hr) (by decide)
    · exact (h.1 2 .unidirectional rfl).2 fun hr => absurd ((hreached 2).mp hr) (by decide)
    · exact (h.1 3 .bidirectional rfl).2 fun hr => absurd ((hreached 3).mp hr) (by decide)
  · exact ((@requests_and_error_resolved true [.pollCreated, .poll] [.pollCreated, .poll, .drop]
      ⟨3, 0, fun code => code == 3⟩ ErrorKind.tlsHandshakeError rfl (by decide) (by simp)
      (by decide)).2 _ rfl).2.1 ⟨rfl, by simp⟩

end Connections

end PicoquicRs
