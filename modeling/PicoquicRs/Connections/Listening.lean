import PicoquicRs.Connections.FoundError

/-!
# What the context of a connection listens to

The context of a connection gets two things from the application: the requests to create a
stream, and the message that closes the connection. It listens to the requests from the
moment it is made (`PicoquicRs.Connections.Context.new` polls them once), but to the
message only since it was polled for the first time. From then on it listens to both
(`PicoquicRs.Connections.Ends.Listening`), until the connection is closed.
-/

namespace PicoquicRs

namespace Connections

open Futures

namespace Context

variable {c c' : Context}

/-- The `Connection` is on its way to whoever waits for it. -/
def handedOut (c : Context) : Bool :=
  match c.created.value with
  | some (.ok ()) => true
  | _ => false

theorem handedOut_congr (h : c'.created.value = c.created.value) :
    c'.handedOut = c.handedOut := by
  rw [handedOut, h, handedOut]

/-- Nothing is there yet, or nothing comes any more. -/
theorem pollCreated_of_none (hv : c.created.value = none) :
    ∃ created, c.pollCreated.2 = { c with created } ∧ created.value = none ∧
      c.pollCreated.1 ≠ some (.ok ()) := by
  obtain ⟨r, created, hpoll, hvalue, hr⟩ : ∃ r created, c.created.poll = (r, created) ∧
      created.value = none ∧ (r = .ok .notReady ∨ r = .error ()) := by
    cases hp : c.created.pending with
    | true =>
      exact ⟨.ok .notReady, ⟨none, true, c.created.receiver, true⟩,
        by simp only [Oneshot.poll, hv, hp, if_true], rfl, Or.inl rfl⟩
    | false =>
      exact ⟨.error (), ⟨none, false, c.created.receiver, false⟩,
        by simp only [Oneshot.poll, hv, hp, Bool.false_eq_true, if_false], rfl, Or.inr rfl⟩
  rcases hr with rfl | rfl
  · exact ⟨created, by rw [pollCreated, hpoll], hvalue, by simp [pollCreated, hpoll]⟩
  · exact ⟨created, by rw [pollCreated, hpoll], hvalue, by simp [pollCreated, hpoll]⟩

/-- A context that is open after a poll was open before, and not ready. -/
theorem poll_open {r : Async Unit} (h : c.poll = some (r, c')) (hopen : c'.closed = false) :
    c.closed = false ∧ r = .notReady := by
  cases hclosed : c.closed with
  | true =>
    rw [poll, hclosed, if_pos rfl] at h
    obtain rfl := (Prod.mk.inj (Option.some.inj h)).2
    rw [hclosed] at hopen
    exact absurd hopen (by simp)
  | false =>
    refine ⟨rfl, ?_⟩
    rw [poll, hclosed, if_neg Bool.false_ne_true] at h
    obtain ⟨c₁, -, h⟩ := Option.bind_eq_some_iff.mp h
    obtain ⟨c₂, -, h⟩ := Option.bind_eq_some_iff.mp h
    split at h
    · obtain ⟨c₃, -, h⟩ := Option.bind_eq_some_iff.mp h
      exact (Prod.mk.inj (Option.some.inj h)).1.symm
    · exact (Prod.mk.inj (Option.some.inj h)).1.symm

/-- **Nothing happens to the `Connection`**, and nothing comes from it. -/
structure Stays (c c' : Context) : Prop where
  closeRecv : c'.closeRecv = c.closeRecv
  requests : c'.recvCreateStream.chan = c.recvCreateStream.chan
  wait : c'.waitForReadyState = c.waitForReadyState
  handedOut : c'.handedOut = c.handedOut

/-- The requests are polled until none is left. -/
theorem checkCreateStreamRequests_watched (h : c.checkCreateStreamRequests = some c') :
    c'.recvCreateStream.chan.Watched ∧
      c'.recvCreateStream.chan.senders = c.recvCreateStream.chan.senders ∧
      c'.closeRecv = c.closeRecv ∧ c'.waitForReadyState = c.waitForReadyState ∧
      c'.created = c.created := by
  refine checkCreateStreamRequests_rule
    (P := fun c' => c'.recvCreateStream.chan.senders = c.recvCreateStream.chan.senders ∧
      c'.closeRecv = c.closeRecv ∧ c'.waitForReadyState = c.waitForReadyState ∧
      c'.created = c.created)
    (Q := fun c' => c'.recvCreateStream.chan.Watched ∧
      c'.recvCreateStream.chan.senders = c.recvCreateStream.chan.senders ∧
      c'.closeRecv = c.closeRecv ∧ c'.waitForReadyState = c.waitForReadyState ∧
      c'.created = c.created) ?_ ?_ ⟨rfl, rfl, rfl, rfl⟩ h
  · rintro c₁ stype r q streams ⟨hs, hrest⟩ - - -
    exact ⟨(Chan.poll_senders (c := c₁.recvCreateStream.chan)).trans hs, hrest⟩
  · rintro c₁ ⟨hs, hrest⟩ hq
    exact ⟨Chan.watched_poll hq, (Chan.poll_senders (c := c₁.recvCreateStream.chan)).trans hs,
      hrest⟩

end Context

namespace Ends

open Context

variable {p p' : Ends} {e : Event} {polled : Bool}

/-- **The event loop listens** to what comes from the application: `polled` says if the
context was polled since it was made. -/
structure Listening (polled : Bool) (p : Ends) : Prop where
  /-- The `Connection` is in one place, as long as there is one: the application has it, or the
  context holds it back, or it is on its way. It has the sender of the close message. -/
  place : p.connection.toNat + p.ctx.waitForReadyState.toNat + p.ctx.handedOut.toNat =
    p.ctx.closeRecv.pending.toNat
  /-- It has a handle to create streams, too. -/
  senders : p.ctx.recvCreateStream.chan.senders = p.ctx.closeRecv.pending.toNat + p.handles
  requests : p.ctx.recvCreateStream.chan.Watched
  close : if polled then p.ctx.closeRecv.Watched else p.ctx.closeRecv.registered = false

namespace Listening

theorem stays (h : p.Listening polled) (hs : Stays p.ctx p'.ctx)
    (hc : p'.connection = p.connection) (hh : p'.handles = p.handles) : p'.Listening polled where
  place := by
    rw [hc, hs.wait, hs.handedOut, hs.closeRecv]
    exact h.place
  senders := by
    rw [hs.requests, hs.closeRecv, hh]
    exact h.senders
  requests := by
    rw [hs.requests]
    exact h.requests
  close := by
    rw [hs.closeRecv]
    exact h.close

/-- **The `Connection` is dropped**, from wherever it is. It may send the close message before. -/
theorem drops {c : Context} (h : p.Listening polled) (hdrop : c.dropConnection = some p'.ctx)
    (hclose : c.closeRecv = p.ctx.closeRecv ∨ c.closeRecv = p.ctx.closeRecv.send ())
    (hchan : c.recvCreateStream.chan = p.ctx.recvCreateStream.chan)
    (hplace : p'.connection.toNat + c.waitForReadyState.toNat + c.handedOut.toNat + 1 =
      p.connection.toNat + p.ctx.waitForReadyState.toNat + p.ctx.handedOut.toNat)
    (hh : p'.handles = p.handles) : p'.Listening polled := by
  obtain ⟨streams, hc, -⟩ := dropConnection_spec hdrop
  have hpending : p.ctx.closeRecv.pending = true := by
    have hsum := h.place
    cases hp : p.ctx.closeRecv.pending with
    | true => rfl
    | false =>
      rw [hp, Bool.toNat_false] at hsum
      omega
  have hsum := h.place
  have hsenders := h.senders
  rw [hpending, Bool.toNat_true] at hsum hsenders
  have hwait : p'.ctx.waitForReadyState = c.waitForReadyState := by rw [hc]
  have hout : p'.ctx.handedOut = c.handedOut := handedOut_congr (by rw [hc])
  have hpending' : p'.ctx.closeRecv.pending = false := by rw [hc]; rfl
  exact {
    place := by
      rw [hwait, hout, hpending', Bool.toNat_false]
      omega
    senders := by
      have hchan' : p'.ctx.recvCreateStream.chan = p.ctx.recvCreateStream.chan.dropSender := by
        rw [hc, ← hchan]
        rfl
      rw [hchan', hpending', hh]
      change p.ctx.recvCreateStream.chan.senders - 1 = 0 + p.handles
      omega
    requests := by
      have hwatched := h.requests.dropSender
      rw [← hchan] at hwatched
      rw [hc]
      exact hwatched
    close := by
      have hclose' : p'.ctx.closeRecv = c.closeRecv.dropSender := by rw [hc]
      have hkeep := h.close
      rw [hclose']
      cases polled with
      | true =>
        rcases hclose with hcl | hcl
        · rw [hcl]
          exact Oneshot.Watched.dropSender hkeep
        · rw [hcl]
          exact (Oneshot.Watched.send hkeep hpending ()).dropSender
      | false =>
        rcases hclose with hcl | hcl
        · rw [hcl]
          exact hkeep
        · rw [hcl]
          exact hkeep }

end Listening

/-! ### The application's end -/

namespace Listening

/-- Whoever asks for a stream has a sender for it. -/
theorem senders_ne_zero (h : p.Listening polled)
    (hhas : (p.connection || decide (0 < p.handles)) = true) :
    p.ctx.recvCreateStream.chan.senders ≠ 0 := by
  have hplace := h.place
  rw [h.senders, ← hplace]
  rw [Bool.or_eq_true, decide_eq_true_eq] at hhas
  rcases hhas with hconn | hhandles
  · rw [hconn, Bool.toNat_true]
    omega
  · omega

/-- A stream is asked for by whoever has a handle. -/
theorem newStream (h : p.Listening polled) (stype : SType)
    (hhas : (p.connection || decide (0 < p.handles)) = true) :
    { p with ctx := p.ctx.newStreamHandle stype }.Listening polled := by
  rcases newStreamHandle_spec p.ctx stype with ⟨ho, hc⟩ | ⟨-, hc⟩
  · have hend : p.ctx.recvCreateStream.chan.isEnded = false := by
      simp [Chan.isEnded, ho, h.senders_ne_zero hhas]
    rw [hc]
    exact ⟨h.place, h.senders, h.requests.push hend _, h.close⟩
  · rw [hc]
    exact ⟨h.place, h.senders, h.requests, h.close⟩

/-- A handle is cloned. -/
theorem cloneHandle (h : p.Listening polled)
    (hhas : (p.connection || decide (0 < p.handles)) = true)
    (hctx : p'.ctx = { p.ctx with recvCreateStream := { p.ctx.recvCreateStream with
      chan := p.ctx.recvCreateStream.chan.cloneSender } })
    (hc : p'.connection = p.connection) (hh : p'.handles = p.handles + 1) :
    p'.Listening polled := by
  have hsenders := h.senders
  refine ⟨?_, ?_, ?_, ?_⟩ <;> rw [hctx]
  · rw [hc]
    exact h.place
  · rw [hh]
    change p.ctx.recvCreateStream.chan.senders + 1 =
      p.ctx.closeRecv.pending.toNat + (p.handles + 1)
    omega
  · exact h.requests.cloneSender (h.senders_ne_zero hhas)
  · exact h.close

/-- A clone is dropped. -/
theorem dropHandle (h : p.Listening polled) (hhas : 0 < p.handles)
    (hctx : p'.ctx = { p.ctx with recvCreateStream := p.ctx.recvCreateStream.dropSender })
    (hc : p'.connection = p.connection) (hh : p'.handles = p.handles - 1) :
    p'.Listening polled := by
  have hsenders := h.senders
  refine ⟨?_, ?_, ?_, ?_⟩ <;> rw [hctx]
  · rw [hc]
    exact h.place
  · rw [hh]
    change p.ctx.recvCreateStream.chan.senders - 1 =
      p.ctx.closeRecv.pending.toNat + (p.handles - 1)
    omega
  · exact h.requests.dropSender
  · exact h.close

/-- **The application polls for its connection**, and may get it. -/
theorem pollCreated (h : p.Listening polled) (hstep : p.stepApplication .pollCreated = some p') :
    p'.Listening polled := by
  cases hv : p.ctx.created.value with
  | none =>
    obtain ⟨a, c, hp⟩ : ∃ a c, p.ctx.pollCreated = (a, c) := ⟨_, _, rfl⟩
    obtain ⟨created, hc, hvalue, ha⟩ := pollCreated_of_none hv
    rw [hp] at hc ha
    obtain rfl : c = _ := hc
    simp only [stepApplication, hp] at hstep
    obtain rfl := Option.some.inj hstep
    refine h.stays ⟨rfl, rfl, rfl, handedOut_congr (hvalue.trans hv.symm)⟩ ?_ rfl
    simp only
  | some a =>
    obtain ⟨created, connection, rfl, hvalue, -, hok, herr⟩ :=
      step_pollCreated_of_value hv (hstep : p.step .pollCreated = some p')
    have hout : ({ p.ctx with created } : Context).handedOut = false := by
      rw [handedOut, hvalue]
    refine ⟨?_, h.senders, h.requests, h.close⟩
    rw [← h.place, hout]
    cases a with
    | ok u =>
      -- the application gets it now
      have hout : p.ctx.handedOut = true := by rw [handedOut, hv]
      have hplace := h.place
      have hle := Bool.toNat_le p.ctx.closeRecv.pending
      rw [hout, Bool.toNat_true] at hplace ⊢
      rw [hok rfl, Bool.toNat_true, Bool.toNat_false]
      simp only
      omega
    | error err =>
      have hout : p.ctx.handedOut = false := by rw [handedOut, hv]
      rw [herr err rfl, hout]

/-- **The future of the connection is dropped**, and the connection if it is there. -/
theorem dropCreated {c : Context} (h : p.Listening polled) (hc : p.ctx.dropCreated = some c) :
    { p with ctx := c }.Listening polled := by
  simp only [Context.dropCreated] at hc
  split at hc
  · rename_i hv
    refine h.drops hc (Or.inl rfl) rfl ?_ rfl
    have hout : p.ctx.handedOut = true := by rw [handedOut, hv]
    rw [hout, Bool.toNat_true]
    rfl
  · rename_i hv
    obtain rfl := Option.some.inj hc
    refine h.stays ⟨rfl, rfl, rfl, ?_⟩ rfl rfl
    have hout : p.ctx.handedOut = false := by
      rw [handedOut]
      split <;> [exact absurd ‹_› hv; rfl]
    rw [hout]
    rfl

end Listening

/-- **Whatever the application does**, the event loop goes on listening. -/
theorem stepApplication_listening (h : p.Listening polled)
    (hstep : p.stepApplication e = some p') : p'.Listening polled := by
  have hvoid : some p = some p' → p'.Listening polled := fun heq => Option.some.inj heq ▸ h
  cases e with
  | newStream stype =>
    simp only [stepApplication] at hstep
    split at hstep
    · obtain rfl := Option.some.inj hstep
      exact h.newStream stype ‹_›
    · exact hvoid hstep
  | cloneHandle =>
    simp only [stepApplication] at hstep
    split at hstep
    · obtain rfl := Option.some.inj hstep
      exact h.cloneHandle ‹_› rfl rfl rfl
    · exact hvoid hstep
  | dropHandle =>
    simp only [stepApplication] at hstep
    split at hstep
    · obtain rfl := Option.some.inj hstep
      exact h.dropHandle ‹_› rfl rfl rfl
    · exact hvoid hstep
  | pollRequest r =>
    obtain ⟨o, c, hp⟩ : ∃ o c, p.ctx.pollRequest r = (o, c) := ⟨_, _, rfl⟩
    obtain ⟨answers, hc, -⟩ := pollRequest_frame p.ctx r
    simp only [stepApplication, hp] at hstep
    rw [hp] at hc
    obtain rfl : c = _ := hc
    obtain rfl := Option.some.inj hstep
    exact h.stays ⟨rfl, rfl, rfl, rfl⟩ rfl rfl
  | dropRequest r =>
    obtain ⟨c, hc, hstep⟩ := Option.bind_eq_some_iff.mp hstep
    obtain rfl := Option.some.inj hstep
    simp only [dropRequest] at hc
    split at hc
    · obtain ⟨streams, rfl, -⟩ := atStream_spec hc
      exact h.stays ⟨rfl, rfl, rfl, rfl⟩ rfl rfl
    · obtain rfl := Option.some.inj hc
      exact h.stays ⟨rfl, rfl, rfl, rfl⟩ rfl rfl
  | pollCreated => exact h.pollCreated hstep
  | dropCreated =>
    obtain ⟨c, hc, hstep⟩ := Option.bind_eq_some_iff.mp hstep
    obtain rfl := Option.some.inj hstep
    exact h.dropCreated hc
  | pollConnection =>
    simp only [stepApplication] at hstep
    split at hstep
    · obtain ⟨o, c, hp⟩ : ∃ o c, p.ctx.pollConnection = (o, c) := ⟨_, _, rfl⟩
      obtain ⟨sendMsg, hc⟩ := pollConnection_frame p.ctx
      simp only [hp] at hstep
      rw [hp] at hc
      obtain rfl : c = _ := hc
      obtain rfl := Option.some.inj hstep
      exact h.stays ⟨rfl, rfl, rfl, rfl⟩ rfl rfl
    · exact hvoid hstep
  | dropConnection =>
    simp only [stepApplication] at hstep
    split at hstep
    · rename_i hconn
      obtain ⟨c, hc, hstep⟩ := Option.bind_eq_some_iff.mp hstep
      obtain rfl := Option.some.inj hstep
      refine h.drops hc (Or.inl rfl) rfl ?_ rfl
      rw [hconn, Bool.toNat_true, Bool.toNat_false]
      omega
    · exact hvoid hstep
  | closeImmediately =>
    simp only [stepApplication] at hstep
    split at hstep
    · rename_i hconn
      obtain ⟨c, hc, hstep⟩ := Option.bind_eq_some_iff.mp hstep
      obtain rfl := Option.some.inj hstep
      refine h.drops hc (Or.inr rfl) rfl ?_ rfl
      rw [hconn, Bool.toNat_true, Bool.toNat_false]
      change 0 + p.ctx.waitForReadyState.toNat + p.ctx.handedOut.toNat + 1 = _
      omega
    · exact hvoid hstep
  | stream k e =>
    simp only [stepApplication] at hstep
    split at hstep
    · obtain ⟨c, hc, hstep⟩ := Option.bind_eq_some_iff.mp hstep
      obtain rfl := Option.some.inj hstep
      obtain ⟨streams, rfl, -⟩ := atStream_spec hc
      exact h.stays ⟨rfl, rfl, rfl, rfl⟩ rfl rfl
    · exact hvoid hstep
  | _ => exact hvoid hstep

/-! ### The event loop's end -/

/-- **The connection is ready**, and the `Connection` goes out or is dropped. -/
theorem Listening.ready {c : Context} (h : p.Listening polled)
    (hc : p.ctx.processWaitForReadyState = some c) : { p with ctx := c }.Listening polled := by
  obtain ⟨hwait, c₁, hc₁, ⟨hreceiver, rfl⟩ | ⟨hreceiver, hdrop⟩⟩ := processWaitForReadyState_spec hc
  · have hout : c.handedOut = true := by
      rw [hc₁, handedOut, Oneshot.send, hreceiver, if_pos rfl]
    have hplace := h.place
    have hle := Bool.toNat_le p.ctx.closeRecv.pending
    rw [hwait, Bool.toNat_true] at hplace
    refine ⟨?_, ?_, ?_, ?_⟩
    · rw [hout, hc₁, Bool.toNat_true]
      simp only [Bool.toNat_false]
      omega
    · rw [hc₁]
      exact h.senders
    · rw [hc₁]
      exact h.requests
    · rw [hc₁]
      exact h.close
  · have hout : c₁.handedOut = false := by
      rw [hc₁, handedOut, Oneshot.send, hreceiver, if_neg Bool.false_ne_true]
    have hplace := h.place
    have hle := Bool.toNat_le p.ctx.closeRecv.pending
    rw [hwait, Bool.toNat_true] at hplace
    refine h.drops hdrop (Or.inl (by rw [hc₁])) (by rw [hc₁]) ?_ rfl
    rw [hout, hwait, hc₁]
    simp only [Bool.toNat_false, Bool.toNat_true]
    omega

/-- **The context is dropped**, and does not have to listen. -/
theorem Listening.drop {c : Context} (h : p.Listening polled) (hc : p.ctx.drop = some c) :
    { p with ctx := c, alive := false }.Listening polled := by
  obtain ⟨streams, c₁, -, hcase, rfl⟩ := drop_spec hc
  have h₁ : { p with ctx := c₁ }.Listening polled := by
    rcases hcase with ⟨hwait, hdrop⟩ | ⟨hwait, rfl⟩
    · refine h.drops hdrop (Or.inl rfl) rfl ?_ rfl
      rw [hwait, Bool.toNat_true]
      change p.connection.toNat + 0 + p.ctx.handedOut.toNat + 1 = _
      omega
    · exact h.stays ⟨rfl, rfl, rfl, rfl⟩ rfl rfl
  refine ⟨h₁.place, h₁.senders, (Chan.terminated_dropReceiver _).watched, ?_⟩
  have hclose := h₁.close
  cases polled with
  | true => exact Oneshot.Watched.dropReceiver hclose
  | false => exact hclose

/-- A closed connection stays closed, and **the event loop goes on listening** to one that is
not. -/
theorem stepContext_listening (hne : e ≠ .poll) (hstep : p.stepContext e = some p')
    (hopen : p'.ctx.closed = false) :
    p.ctx.closed = false ∧ (p.Listening polled → p'.Listening polled) := by
  cases e with
  | callback cb =>
    obtain ⟨c, hc, hstep⟩ := Option.bind_eq_some_iff.mp hstep
    obtain rfl := Option.some.inj hstep
    cases cb with
    | almostReady =>
      rw [handleCallback] at hc
      split at hc
      · refine ⟨?_, fun h => h.ready hc⟩
        obtain ⟨-, c₁, hc₁, ⟨-, rfl⟩ | ⟨-, hdrop⟩⟩ := processWaitForReadyState_spec hc
        · rwa [hc₁] at hopen
        · obtain ⟨streams, hc', -⟩ := dropConnection_spec hdrop
          rwa [hc', hc₁] at hopen
      · obtain rfl := Option.some.inj hc
        exact ⟨hopen, fun h => h⟩
    | stream id scb =>
      rw [handleCallback] at hc
      split at hc
      · rcases handleStreamCallback_spec hc with ⟨-, streams, rfl, -⟩ | ⟨-, streams, rfl, -⟩
        · exact ⟨hopen, fun h => h.stays ⟨rfl, rfl, rfl, rfl⟩ rfl rfl⟩
        · exact ⟨hopen, fun h => h.stays ⟨rfl, rfl, rfl, rfl⟩ rfl rfl⟩
      · obtain rfl := Option.some.inj hc
        exact ⟨hopen, fun h => h⟩
  | close codes =>
    obtain ⟨c, hc, hstep⟩ := Option.bind_eq_some_iff.mp hstep
    obtain rfl := Option.some.inj hstep
    obtain ⟨c₁, -, hc⟩ := Option.bind_eq_some_iff.mp hc
    obtain ⟨streams, rfl, -⟩ := close_spec hc
    exact absurd hopen (by simp)
  | poll => exact absurd rfl hne
  | drop =>
    obtain ⟨c, hc, hstep⟩ := Option.bind_eq_some_iff.mp hstep
    obtain rfl := Option.some.inj hstep
    refine ⟨?_, fun h => h.drop hc⟩
    obtain ⟨streams, c₁, -, hcase, rfl⟩ := drop_spec hc
    rcases hcase with ⟨-, hdrop⟩ | ⟨-, rfl⟩
    · obtain ⟨streams', rfl, -⟩ := dropConnection_spec hdrop
      exact hopen
    · exact hopen
  | _ =>
    obtain rfl := Option.some.inj hstep
    exact ⟨hopen, fun h => h⟩

/-- **Whatever happens but a poll, the event loop goes on listening** to a connection that is
not closed. -/
theorem step_listening (hne : e ≠ .poll) (hstep : p.step e = some p')
    (hopen : p'.ctx.closed = false) :
    p.ctx.closed = false ∧ (p.Listening polled → p'.Listening polled) := by
  rw [step] at hstep
  split at hstep
  · split at hstep
    · exact stepContext_listening hne hstep hopen
    · obtain rfl := Option.some.inj hstep
      exact ⟨hopen, fun h => h⟩
  · have hclosed := (stepApplication_spec hstep).2.1
    exact ⟨hclosed ▸ hopen, fun h => stepApplication_listening h hstep⟩

/-- **A poll listens to both.** -/
theorem poll_listening (h : p.Listening polled) {r : Async Unit} {c : Context}
    (hc : p.ctx.poll = some (r, c)) (hopen : c.closed = false) :
    { p with ctx := c }.Listening true := by
  rcases poll_spec hc with ⟨hclosed, rfl⟩ | ⟨-, streams, c₂, -, hrequests, hcase⟩
  · exact absurd (hclosed.symm.trans hopen) (by simp)
  · obtain ⟨hwatched, hsenders, hclose, hwait, hcreated⟩ :=
      checkCreateStreamRequests_watched hrequests
    rcases hcase with ⟨-, hclosing⟩ | ⟨hnot, rfl⟩
    · obtain ⟨streams', rfl, -⟩ := close_spec hclosing
      exact absurd hopen (by simp)
    · have hvalue : c₂.closeRecv.value = none := by
        rw [Option.eq_none_iff_forall_ne_some]
        intro u hv
        exact hnot (by rw [Oneshot.poll, hv])
      have hpending : c₂.closeRecv.poll.2.pending = p.ctx.closeRecv.pending := by
        rw [Oneshot.poll_pending, hclose]
      refine ⟨?_, ?_, hwatched, Oneshot.watched_poll hvalue⟩
      · have hwait : c₂.waitForReadyState = p.ctx.waitForReadyState := hwait
        have hout : c₂.handedOut = p.ctx.handedOut :=
          handedOut_congr (congrArg Oneshot.value hcreated)
        rw [hpending, ← h.place, ← hwait, ← hout]
        rfl
      · rw [hpending, ← h.senders]
        exact hsenders

/-- The event loop listens to the requests of a connection that was just made. -/
theorem new_listening (isClient : Bool) : (new isClient).Listening false := by
  cases isClient with
  | true => exact ⟨rfl, rfl, Or.inl rfl, rfl⟩
  | false => exact ⟨rfl, rfl, Or.inl rfl, rfl⟩

end Ends

end Connections

end PicoquicRs
