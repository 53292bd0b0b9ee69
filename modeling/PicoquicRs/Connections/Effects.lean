import PicoquicRs.Connections.Later

/-!
# What each function of a connection context does

One lemma for each function of `PicoquicRs.Connections.Context`, with the context it leaves
behind written out. Only what the streams do is left open: they take some more events
(`PicoquicRs.Connections.Laters`). The two loops over the create requests get a rule each.
-/

namespace PicoquicRs

namespace Connections

open Futures

namespace Context

variable {c c' : Context}

/-! ### The application's end -/

/-- **A create request** waits in the queue, or is answered at once if the queue is closed. -/
theorem newStreamHandle_spec (c : Context) (stype : SType) :
    (c.recvCreateStream.chan.isOpen = true ∧ c.newStreamHandle stype = { c with
      answers := c.answers.alloc Oneshot.new
      recvCreateStream := { c.recvCreateStream with
        chan := c.recvCreateStream.chan.push (stype, c.answers.next) } }) ∨
    (c.recvCreateStream.chan.isOpen = false ∧ c.newStreamHandle stype = { c with
      answers := (c.answers.alloc Oneshot.new).modify c.answers.next
        (Oneshot.send · (.error (c.recvCreateStream.errorState.getD ErrorKind.unknown))) }) := by
  cases ho : c.recvCreateStream.chan.isOpen with
  | true =>
    refine Or.inl ⟨rfl, ?_⟩
    simp only [newStreamHandle, ErrorChan.startSend, Chan.startSend, ho, if_true]
  | false =>
    refine Or.inr ⟨rfl, ?_⟩
    simp only [newStreamHandle, ErrorChan.startSend_of_closed _ _ ho,
      ErrorChan.mapErr_of_closed _ ho]
    cases c.recvCreateStream.errorState <;> rfl

/-- Only the answers change. -/
theorem pollRequest_frame (c : Context) (r : RequestRef) :
    ∃ answers, (c.pollRequest r).2 = { c with answers } ∧ answers.next = c.answers.next := by
  simp only [pollRequest]
  split <;> exact ⟨_, rfl, rfl⟩

/-- Only the future changes. -/
theorem pollCreated_frame (c : Context) : ∃ created, c.pollCreated.2 = { c with created } ∧
    created.receiver = c.created.receiver := by
  refine ⟨c.created.poll.2, ?_, Oneshot.poll_receiver⟩
  simp only [pollCreated]
  split <;> rfl

/-- Only the channel to the `Connection` changes. -/
theorem pollConnection_frame (c : Context) :
    ∃ sendMsg, c.pollConnection.2 = { c with sendMsg } := by
  simp only [pollConnection]
  split <;> [exact ⟨_, rfl⟩; (split <;> exact ⟨_, rfl⟩)]

theorem dropStreams_spec {ks : List StreamRef}
    (h : ks.foldlM (atStream · · .dropStream) c = some c') :
    ∃ streams, c' = { c with streams } ∧ Laters c.streams streams := by
  induction ks generalizing c with
  | nil =>
    obtain rfl : c = c' := by simpa using h
    exact ⟨c.streams, rfl, .refl _⟩
  | cons k ks ih =>
    rw [List.foldlM_cons] at h
    obtain ⟨c₁, hc₁, h⟩ := Option.bind_eq_some_iff.mp h
    obtain ⟨streams, rfl, hl⟩ := atStream_spec hc₁
    obtain ⟨streams', rfl, hl'⟩ := ih h
    exact ⟨streams', rfl, hl.trans hl'⟩

/-- **The application's end is dropped.** -/
theorem dropConnection_spec (h : c.dropConnection = some c') :
    ∃ streams, c' = { c with
        streams
        sendMsg := c.sendMsg.dropReceiver
        closeRecv := c.closeRecv.dropSender
        recvCreateStream := c.recvCreateStream.dropSender } ∧ Laters c.streams streams := by
  obtain ⟨c₁, hc₁, h⟩ := Option.bind_eq_some_iff.mp h
  obtain rfl := Option.some.inj h
  obtain ⟨streams, rfl, hl⟩ := dropStreams_spec hc₁
  exact ⟨streams, rfl, hl⟩

/-- **A request gets its answer.** -/
theorem answer_spec {r : RequestRef} {a : Except Error StreamRef} (h : c.answer r a = some c') :
    ∃ streams, c' = { c with
        streams
        answers := c.answers.modify r (Oneshot.send · a) } ∧ Laters c.streams streams := by
  cases a with
  | ok k =>
    simp only [answer] at h
    split at h
    · obtain rfl := Option.some.inj h
      exact ⟨c.streams, rfl, .refl _⟩
    · obtain ⟨streams, rfl, hl⟩ := atStream_spec h
      exact ⟨streams, rfl, hl⟩
  | error err =>
    obtain rfl := Option.some.inj h
    exact ⟨c.streams, rfl, .refl _⟩

/-! ### Callbacks -/

/-- **A callback for a stream**: the context of the stream takes it, and is made first if
there is none. A new stream is sent to the `Connection`, if there is one. -/
theorem handleStreamCallback_spec {id : Id} {cb : Streams.Callback}
    (h : c.handleStreamCallback id cb = some c') :
    (c.hasContext id = true ∧ ∃ streams, c' = { c with streams } ∧ Laters c.streams streams) ∨
    (c.hasContext id = false ∧ ∃ streams,
      c' = { c.insertStream id false with
        streams
        sendMsg := if c.sendMsg.isOpen then c.sendMsg.push (.newStream c.streams.length)
          else c.sendMsg } ∧
      Laters (c.insertStream id false).streams streams) := by
  rw [handleStreamCallback] at h
  split at h
  · obtain ⟨streams, rfl, hl⟩ := eachContext_spec h
    exact Or.inl ⟨‹_›, streams, rfl, hl⟩
  · obtain ⟨c₁, hc₁, h⟩ := Option.bind_eq_some_iff.mp h
    obtain ⟨streams, rfl, hl⟩ := atStream_spec hc₁
    refine Or.inr ⟨by simpa using ‹¬c.hasContext id = true›, ?_⟩
    cases ho : c.sendMsg.isOpen with
    | true =>
      rw [show (c.insertStream id false).sendMsg = c.sendMsg from rfl,
        Chan.unboundedSend_of_open ho] at h
      obtain rfl := Option.some.inj h
      exact ⟨streams, rfl, hl⟩
    | false =>
      rw [show (c.insertStream id false).sendMsg = c.sendMsg from rfl,
        Chan.unboundedSend_of_closed ho] at h
      obtain ⟨streams', rfl, hl'⟩ := atStream_spec h
      exact ⟨streams', rfl, hl.trans hl'⟩

/-- **The connection is ready**: the `Connection` that was held back goes out, or is
dropped. -/
theorem processWaitForReadyState_spec (h : c.processWaitForReadyState = some c') :
    c.waitForReadyState = true ∧ ∃ c₁, c₁ = { c with
        waitForReadyState := false
        created := c.created.send (.ok ())
        calls := c.calls ++ [.getLocalCnxid] } ∧
      (c.created.receiver = true ∧ c' = c₁ ∨
        c.created.receiver = false ∧ c₁.dropConnection = some c') := by
  rw [processWaitForReadyState] at h
  split at h
  · refine ⟨‹_›, _, rfl, ?_⟩
    simp only at h
    split at h
    · exact Or.inl ⟨‹_›, (Option.some.inj h).symm⟩
    · exact Or.inr ⟨by simpa using ‹¬c.created.receiver = true›, h⟩
  · simp at h

/-! ### Closing -/

/-- **The connection is closed.** The `Connection` is told, if there is one. -/
theorem close_spec (h : c.close = some c') :
    ∃ streams, c' = { c with
        streams
        calls := c.calls ++ [Call.close]
        closed := true
        sendMsg := if c.sendMsg.isOpen then c.sendMsg.push .close else c.sendMsg } ∧
      Laters c.streams streams := by
  obtain ⟨c₁, hc₁, h⟩ := Option.bind_eq_some_iff.mp h
  obtain ⟨streams, rfl, hl⟩ := eachContext_spec hc₁
  refine ⟨streams, ?_, hl⟩
  cases ho : c.sendMsg.isOpen with
  | true =>
    simp only [Chan.unboundedSend_of_open ho] at h
    exact (Option.some.inj h).symm
  | false =>
    simp only [Chan.unboundedSend_of_closed ho] at h
    exact (Option.some.inj h).symm

/-- The answers once every request of the queue failed. -/
def failAll (err : Error) (queue : List (SType × RequestRef))
    (answers : Store (Oneshot (Except Error StreamRef))) :
    Store (Oneshot (Except Error StreamRef)) :=
  queue.foldl (fun h request => h.modify request.2 (Oneshot.send · (.error err))) answers

theorem failLoop_nil {err : Error} {fuel : ℕ} (hq : c.recvCreateStream.chan.queue = []) :
    failLoop err (fuel + 1) c = some { c with recvCreateStream := c.recvCreateStream.poll.2 } := by
  rcases ErrorChan.poll_of_nil hq with hpoll | hpoll <;> rw [failLoop, hpoll]

theorem failLoop_cons {err : Error} {fuel : ℕ} {stype : SType} {r : RequestRef}
    {q : List (SType × RequestRef)} (hq : c.recvCreateStream.chan.queue = (stype, r) :: q) :
    failLoop err (fuel + 1) c = failLoop err fuel { c with
      recvCreateStream := c.recvCreateStream.poll.2
      answers := c.answers.modify r (Oneshot.send · (.error err)) } := by
  rw [failLoop, ErrorChan.poll_of_cons hq]
  rfl

/-- **Every request left fails**, and no stream is touched. -/
theorem failLoop_spec {err : Error} {fuel : ℕ}
    (hfuel : c.recvCreateStream.chan.queue.length < fuel) (h : failLoop err fuel c = some c') :
    ∃ chan, c' = { c with
        recvCreateStream := { c.recvCreateStream with chan }
        answers := failAll err c.recvCreateStream.chan.queue c.answers } ∧
      chan.queue = [] ∧ chan.isOpen = c.recvCreateStream.chan.isOpen := by
  induction fuel generalizing c with
  | zero => exact absurd hfuel (Nat.not_lt_zero _)
  | succ fuel ih =>
    cases hq : c.recvCreateStream.chan.queue with
    | nil =>
      rw [failLoop_nil hq] at h
      exact ⟨c.recvCreateStream.chan.poll.2, (Option.some.inj h).symm, by simp [hq], by simp⟩
    | cons request q =>
      rw [failLoop_cons hq] at h
      have hpoll : c.recvCreateStream.poll.2.chan.queue = q := by
        rw [ErrorChan.poll_queue, hq, List.tail_cons]
      rw [hq, List.length_cons] at hfuel
      obtain ⟨chan, rfl, hempty, hopen⟩ := ih (by
        change c.recvCreateStream.poll.2.chan.queue.length < fuel
        rw [hpoll]
        exact Nat.lt_of_succ_lt_succ hfuel) h
      refine ⟨chan, ?_, hempty, hopen.trans ErrorChan.poll_isOpen⟩
      simp only [hpoll]
      rfl

/-- **An error is found.** Every request left fails with it, and it is left for those to
come; it goes to whoever waits for the `Connection`, or else to the `Connection`. -/
theorem checkAndHandleError_found {codes : Codes} {err : Error} (herr : codes.error.1 = some err)
    (h : c.checkAndHandleError codes = some c') :
    ∃ streams chan c₁, Laters c.streams streams ∧ chan.queue = [] ∧ chan.isOpen = false ∧
      c₁ = { c with
        streams
        calls := c.calls ++ codes.error.2
        recvCreateStream := { chan, errorState := some err }
        answers := failAll err c.recvCreateStream.chan.queue c.answers } ∧
      (c.waitForReadyState = true ∧ { c₁ with
          waitForReadyState := false
          created := c.created.send (.error err) }.dropConnection = some c' ∨
        c.waitForReadyState = false ∧ c' = { c₁ with
          sendMsg := if c.sendMsg.isOpen then c.sendMsg.push (.error err) else c.sendMsg }) := by
  obtain ⟨e, calls, hcodes⟩ : ∃ e calls, codes.error = (e, calls) := ⟨_, _, rfl⟩
  rw [hcodes] at herr
  obtain rfl : e = some err := herr
  simp only [checkAndHandleError, hcodes] at h
  obtain ⟨c₁, hc₁, h⟩ := Option.bind_eq_some_iff.mp h
  obtain ⟨c₂, hc₂, h⟩ := Option.bind_eq_some_iff.mp h
  obtain ⟨streams, rfl, hl⟩ := eachContext_spec hc₁
  obtain ⟨chan, rfl, hempty, hopen⟩ := failLoop_spec (Nat.lt_succ_self _) hc₂
  refine ⟨streams, chan, _, hl, hempty, hopen, by rw [hcodes], ?_⟩
  cases hw : c.waitForReadyState with
  | true =>
    simp only [hw, if_true] at h
    exact Or.inl ⟨rfl, h⟩
  | false =>
    refine Or.inr ⟨rfl, ?_⟩
    simp only [hw, Bool.false_eq_true, if_false] at h
    cases ho : c.sendMsg.isOpen with
    | true =>
      simp only [Chan.unboundedSend_of_open ho] at h
      exact (Option.some.inj h).symm
    | false =>
      simp only [Chan.unboundedSend_of_closed ho] at h
      exact (Option.some.inj h).symm

/-- Without an error nothing is done. -/
theorem checkAndHandleError_none {codes : Codes} (herr : codes.error.1 = none)
    (h : c.checkAndHandleError codes = some c') :
    c' = { c with calls := c.calls ++ codes.error.2 } := by
  obtain ⟨e, calls, hcodes⟩ : ∃ e calls, codes.error = (e, calls) := ⟨_, _, rfl⟩
  rw [hcodes] at herr
  obtain rfl : e = none := herr
  simp only [checkAndHandleError, hcodes] at h
  rw [hcodes]
  exact (Option.some.inj h).symm

/-! ### Polling and dropping -/

/-- What creating the stream a request asks for makes of the context. -/
def createStream (c : Context) (stype : SType) : Context :=
  { c with
    recvCreateStream := c.recvCreateStream.poll.2
    nextStreamId := c.nextStreamId + 1 }.insertStream
    (generateStreamId c.nextStreamId c.isClient stype) true

theorem createLoop_nil {fuel : ℕ} (hq : c.recvCreateStream.chan.queue = []) :
    createLoop (fuel + 1) c = some { c with recvCreateStream := c.recvCreateStream.poll.2 } := by
  rcases ErrorChan.poll_of_nil hq with hpoll | hpoll <;> rw [createLoop, hpoll]

theorem createLoop_cons {fuel : ℕ} {stype : SType} {r : RequestRef}
    {q : List (SType × RequestRef)} (hq : c.recvCreateStream.chan.queue = (stype, r) :: q) :
    createLoop (fuel + 1) c =
      if c.hasContext (generateStreamId c.nextStreamId c.isClient stype) then none
      else ((c.createStream stype).answer r (.ok c.streams.length)).bind (createLoop fuel) := by
  rw [createLoop, ErrorChan.poll_of_cons hq]
  rfl

/-- **The rule for the create requests.** A property that survives the creation of each
stream, with the answer to the request, ends with what follows from it once no request is
left. -/
theorem checkCreateStreamRequests_rule {P Q : Context → Prop}
    (hcreate : ∀ (c : Context) stype r q streams, P c →
      c.recvCreateStream.chan.queue = (stype, r) :: q →
      c.hasContext (generateStreamId c.nextStreamId c.isClient stype) = false →
      Laters (c.createStream stype).streams streams →
      P { c.createStream stype with
        streams, answers := c.answers.modify r (Oneshot.send · (.ok c.streams.length)) })
    (hend : ∀ c : Context, P c → c.recvCreateStream.chan.queue = [] →
      Q { c with recvCreateStream := c.recvCreateStream.poll.2 })
    (h : P c) (hc : c.checkCreateStreamRequests = some c') : Q c' := by
  suffices hloop : ∀ (fuel : ℕ) (c : Context), c.recvCreateStream.chan.queue.length < fuel → P c →
      createLoop fuel c = some c' → Q c' from hloop _ c (Nat.lt_succ_self _) h hc
  intro fuel
  induction fuel with
  | zero => exact fun c hlt => absurd hlt (Nat.not_lt_zero _)
  | succ fuel ih =>
    intro c hlt hP hc
    cases hq : c.recvCreateStream.chan.queue with
    | nil =>
      rw [createLoop_nil hq] at hc
      obtain rfl := Option.some.inj hc
      exact hend c hP hq
    | cons request q =>
      obtain ⟨stype, r⟩ := request
      rw [createLoop_cons hq] at hc
      split at hc
      · simp at hc
      · obtain ⟨c₁, hc₁, hc⟩ := Option.bind_eq_some_iff.mp hc
        obtain ⟨streams, rfl, hl⟩ := answer_spec hc₁
        refine ih _ ?_ (hcreate c stype r q streams hP hq (by simpa using ‹¬_ = true›) hl) hc
        change c.recvCreateStream.poll.2.chan.queue.length < fuel
        rw [ErrorChan.poll_queue, hq, List.tail_cons]
        rw [hq, List.length_cons] at hlt
        exact Nat.lt_of_succ_lt_succ hlt

/-- **An open connection is polled**: its streams, then the requests, then whether the
application closed it. -/
theorem poll_spec {r : Async Unit} (h : c.poll = some (r, c')) :
    (c.closed = true ∧ c' = c) ∨
    (c.closed = false ∧ ∃ streams c₂, Laters c.streams streams ∧
      { c with streams }.checkCreateStreamRequests = some c₂ ∧
      ((c₂.closeRecv.poll.1 = .ok (.ready ()) ∧
          { c₂ with closeRecv := c₂.closeRecv.poll.2 }.close = some c') ∨
        (c₂.closeRecv.poll.1 ≠ .ok (.ready ()) ∧
          c' = { c₂ with closeRecv := c₂.closeRecv.poll.2 }))) := by
  rw [poll] at h
  by_cases hcl : c.closed = true
  · rw [if_pos hcl] at h
    exact Or.inl ⟨hcl, (Prod.mk.inj (Option.some.inj h)).2.symm⟩
  · rw [if_neg hcl] at h
    obtain ⟨c₁, hc₁, h₁⟩ := Option.bind_eq_some_iff.mp h
    obtain ⟨c₂, hc₂, h₂⟩ := Option.bind_eq_some_iff.mp h₁
    obtain ⟨streams, rfl, hl⟩ := eachContext_spec hc₁
    refine Or.inr ⟨by simpa using hcl, streams, c₂, hl, hc₂, ?_⟩
    split at h₂
    · rename_i closeRecv hpoll
      obtain ⟨c₃, hc₃, h₃⟩ := Option.bind_eq_some_iff.mp h₂
      obtain ⟨-, rfl⟩ := Prod.mk.inj (Option.some.inj h₃)
      exact Or.inl ⟨by rw [hpoll], by rw [hpoll]; exact hc₃⟩
    · rename_i a closeRecv hne hpoll
      obtain ⟨-, rfl⟩ := Prod.mk.inj (Option.some.inj h₂)
      refine Or.inr ⟨fun heq => ?_, by rw [hpoll]⟩
      rw [hpoll] at heq
      exact hne () heq

/-- The answers once every request of the queue was dropped. -/
def dropAll (queue : List (SType × RequestRef))
    (answers : Store (Oneshot (Except Error StreamRef))) :
    Store (Oneshot (Except Error StreamRef)) :=
  queue.foldl (fun h request => Store.modify h request.2 Oneshot.dropSender) answers

/-- **The context is dropped**, and with it its ends of all channels. -/
theorem drop_spec (h : c.drop = some c') :
    ∃ streams c₁, Laters c.streams streams ∧
      (c.waitForReadyState = true ∧ { c with
          streams
          calls := c.calls ++ [Call.clearCallback]
          waitForReadyState := false
          created := c.created.dropSender }.dropConnection = some c₁ ∨
        c.waitForReadyState = false ∧ c₁ = { c with
          streams
          calls := c.calls ++ [Call.clearCallback]
          created := c.created.dropSender }) ∧
      c' = { c₁ with
        sendMsg := c₁.sendMsg.dropSender
        closeRecv := c₁.closeRecv.dropReceiver
        recvCreateStream := c₁.recvCreateStream.dropReceiver
        answers := dropAll c₁.recvCreateStream.chan.queue c₁.answers } := by
  obtain ⟨c₁, hc₁, h⟩ := Option.bind_eq_some_iff.mp h
  obtain ⟨c₂, hc₂, h⟩ := Option.bind_eq_some_iff.mp h
  obtain rfl := Option.some.inj h
  obtain ⟨streams, rfl, hl⟩ := eachContext_spec hc₁
  refine ⟨streams, c₂, hl, ?_, rfl⟩
  cases hw : c.waitForReadyState with
  | true =>
    simp only [dropWaitForReadyState, hw, if_true] at hc₂
    exact Or.inl ⟨rfl, hc₂⟩
  | false =>
    simp only [dropWaitForReadyState, hw, Bool.false_eq_true, if_false] at hc₂
    exact Or.inr ⟨rfl, (Option.some.inj hc₂).symm⟩

end Context

end Connections

end PicoquicRs
