import PicoquicRs.Connections.Effects
import PicoquicRs.Streams.Calls

/-!
# The streams in a run of a connection

A function of the context either lets the streams it has take some events
(`PicoquicRs.Connections.Context.Same`), or makes another stream; only a callback and a
create request do the latter. What the application does is of the first kind, and does not
call into picoquic (`PicoquicRs.Connections.Ends.stepApplication_spec`). From there on
`PicoquicRs.Connections.Ends.step_rule` and `PicoquicRs.Connections.Ends.run_rule` carry a
property of the streams through a step, and through a run.
-/

namespace PicoquicRs

namespace Connections

open Futures

namespace Context

variable {c c' : Context}

/-- **The streams are the same as before**, and so is what the next one is named
after. -/
structure Same (c c' : Context) : Prop where
  streams : Laters c.streams c'.streams
  isClient : c'.isClient = c.isClient
  nextStreamId : c'.nextStreamId = c.nextStreamId

namespace Same

variable {c'' : Context}

theorem trans (h : Same c c') (h' : Same c' c'') : Same c c'' where
  streams := h.streams.trans h'.streams
  isClient := h'.isClient.trans h.isClient
  nextStreamId := h'.nextStreamId.trans h.nextStreamId

/-- The streams were not touched. -/
theorem of_eq (hs : c'.streams = c.streams) (hc : c'.isClient = c.isClient)
    (hn : c'.nextStreamId = c.nextStreamId) : Same c c' := ⟨hs ▸ .refl _, hc, hn⟩

/-- The streams were not touched before. -/
theorem after (h : Same c' c'') (hs : c'.streams = c.streams) (hc : c'.isClient = c.isClient)
    (hn : c'.nextStreamId = c.nextStreamId) : Same c c'' := (of_eq hs hc hn).trans h

end Same

theorem eachContext_same {sel : Entry → Bool} {e : Streams.Event}
    (h : c.eachContext sel e = some c') : Same c c' := by
  obtain ⟨streams, rfl, hl⟩ := eachContext_spec h
  exact ⟨hl, rfl, rfl⟩

theorem atStream_same {k : StreamRef} {e : Streams.Event} (h : c.atStream k e = some c') :
    Same c c' := by
  obtain ⟨streams, rfl, hl⟩ := atStream_spec h
  exact ⟨hl, rfl, rfl⟩

theorem dropConnection_same (h : c.dropConnection = some c') : Same c c' := by
  obtain ⟨streams, rfl, hl⟩ := dropConnection_spec h
  exact ⟨hl, rfl, rfl⟩

theorem processWaitForReadyState_same (h : c.processWaitForReadyState = some c') : Same c c' := by
  obtain ⟨-, c₁, rfl, ⟨-, rfl⟩ | ⟨-, hdrop⟩⟩ := processWaitForReadyState_spec h
  · exact .of_eq rfl rfl rfl
  · exact (dropConnection_same hdrop).after rfl rfl rfl

theorem close_same (h : c.close = some c') : Same c c' := by
  obtain ⟨streams, rfl, hl⟩ := close_spec h
  exact ⟨hl, rfl, rfl⟩

/-- **An error is first told to every context in the map.** -/
theorem checkAndHandleError_spec {codes : Codes} (h : c.checkAndHandleError codes = some c') :
    (codes.error.1 = none ∧ Same c c') ∨
    ∃ err calls c₁, codes.error.1 = some err ∧
      { c with calls }.eachContext (fun _ => true) (.connectionError err) = some c₁ ∧
      Same c₁ c' := by
  obtain ⟨err, calls, hcodes⟩ : ∃ err calls, codes.error = (err, calls) := ⟨_, _, rfl⟩
  simp only [checkAndHandleError, hcodes] at h
  cases err with
  | none =>
    obtain rfl := Option.some.inj h
    exact Or.inl ⟨by rw [hcodes], .of_eq rfl rfl rfl⟩
  | some err =>
    obtain ⟨c₁, hc₁, h⟩ := Option.bind_eq_some_iff.mp h
    obtain ⟨c₂, hc₂, h⟩ := Option.bind_eq_some_iff.mp h
    refine Or.inr ⟨err, _, c₁, by rw [hcodes], hc₁, ?_⟩
    obtain ⟨chan, rfl, -, -⟩ := failLoop_spec (Nat.lt_succ_self _) hc₂
    split at h
    · exact (dropConnection_same h).after rfl rfl rfl
    · split at h <;> obtain rfl := Option.some.inj h
      · exact .of_eq rfl rfl rfl
      · exact .of_eq rfl rfl rfl

theorem checkAndHandleError_same {codes : Codes} (h : c.checkAndHandleError codes = some c') :
    Same c c' := by
  rcases checkAndHandleError_spec h with ⟨-, hs⟩ | ⟨err, calls, c₁, -, hc₁, hs⟩
  · exact hs
  · exact Same.after ((eachContext_same hc₁).trans hs) rfl rfl rfl

theorem handleClose_same {codes : Codes} (h : c.handleClose codes = some c') : Same c c' := by
  obtain ⟨c₁, hc₁, h⟩ := Option.bind_eq_some_iff.mp h
  exact (checkAndHandleError_same hc₁).trans (close_same h)

theorem drop_same (h : c.drop = some c') : Same c c' := by
  obtain ⟨streams, c₁, hl, ⟨-, hdrop⟩ | ⟨-, rfl⟩, rfl⟩ := drop_spec h
  · have h₁ : Same c { c with streams } := ⟨hl, rfl, rfl⟩
    exact (h₁.trans ((dropConnection_same hdrop).after rfl rfl rfl)).trans (.of_eq rfl rfl rfl)
  · exact ⟨hl, rfl, rfl⟩

/-! ### The functions that make streams -/

/-- **The rule for the create requests**, for a property that sees neither the events of the
streams nor which requests are left: it survives all of them if it survives each creation. -/
theorem createStream_rule {P : Context → Prop}
    (hsame : ∀ c c' : Context, P c → Same c c' →
      c'.recvCreateStream.chan.queue.length ≤ c.recvCreateStream.chan.queue.length → P c')
    (hcreate : ∀ (c : Context) (stype : SType), P c → c.recvCreateStream.chan.queue ≠ [] →
      c.hasContext (generateStreamId c.nextStreamId c.isClient stype) = false →
      P (c.createStream stype))
    (h : P c) (hc : c.checkCreateStreamRequests = some c') : P c' := by
  refine checkCreateStreamRequests_rule (P := P) (Q := P) ?_ ?_ h hc
  · intro c stype r q streams h hq hno hl
    exact hsame _ _ (hcreate c stype h (by simp [hq]) hno) ⟨hl, rfl, rfl⟩ (Nat.le_refl _)
  · intro c h hq
    refine hsame _ _ h (.of_eq rfl rfl rfl) (Nat.le_of_eq ?_)
    change c.recvCreateStream.chan.poll.2.queue.length = _
    rw [Chan.poll_queue, hq, List.tail_nil]

theorem handleCallback_rule {P : Context → Prop} (hsame : ∀ c c', P c → Same c c' → P c')
    {cb : Callback} (h : P c)
    (hnew : ∀ id scb, cb = .stream id scb → id ≠ 0 → c.hasContext id = false →
      P (c.insertStream id false))
    (hc : c.handleCallback cb = some c') : P c' := by
  cases cb with
  | almostReady =>
    rw [handleCallback] at hc
    split at hc
    · exact hsame _ _ h (processWaitForReadyState_same hc)
    · obtain rfl := Option.some.inj hc
      exact h
  | stream id scb =>
    rw [handleCallback] at hc
    split at hc
    · rename_i hid
      rcases handleStreamCallback_spec hc with ⟨-, streams, rfl, hl⟩ | ⟨hno, streams, rfl, hl⟩
      · exact hsame _ _ h ⟨hl, rfl, rfl⟩
      · exact hsame _ _ (hnew id scb rfl hid hno) ⟨hl, rfl, rfl⟩
    · obtain rfl := Option.some.inj hc
      exact h

theorem poll_rule {P : Context → Prop} (hsame : ∀ c c', P c → Same c c' → P c') {r : Async Unit}
    (h : P c)
    (hcreate : ∀ c₁ c₂, P c₁ → c₁.recvCreateStream = c.recvCreateStream →
      c₁.nextStreamId = c.nextStreamId → c₁.checkCreateStreamRequests = some c₂ → P c₂)
    (hc : c.poll = some (r, c')) : P c' := by
  rcases poll_spec hc with ⟨-, rfl⟩ | ⟨-, streams, c₂, hl, hc₂, ⟨-, hclose⟩ | ⟨-, rfl⟩⟩
  · exact h
  · have h₁ : P { c with streams } := hsame _ _ h ⟨hl, rfl, rfl⟩
    exact hsame _ _ (hcreate _ c₂ h₁ rfl rfl hc₂) ((close_same hclose).after rfl rfl rfl)
  · have h₁ : P { c with streams } := hsame _ _ h ⟨hl, rfl, rfl⟩
    exact hsame _ _ (hcreate _ c₂ h₁ rfl rfl hc₂) (.of_eq rfl rfl rfl)

/-! ### The application's end -/

/-- The calls the streams have made, in the order of creation. -/
def streamCalls (c : Context) : List (List Streams.Call) :=
  c.streams.map fun en => en.pair.ctx.calls

/-- **The streams are the same as before, and picoquic was not called**, which is all
the application can do. -/
structure Quiet (c c' : Context) : Prop where
  same : Same c c'
  calls : c'.calls = c.calls
  streamCalls : c'.streamCalls = c.streamCalls

namespace Quiet

variable {c'' : Context}

theorem trans (h : Quiet c c') (h' : Quiet c' c'') : Quiet c c'' where
  same := h.same.trans h'.same
  calls := h'.calls.trans h.calls
  streamCalls := h'.streamCalls.trans h.streamCalls

/-- The streams were not touched. -/
theorem of_eq (hs : c'.streams = c.streams) (hc : c'.isClient = c.isClient)
    (hn : c'.nextStreamId = c.nextStreamId) (hcalls : c'.calls = c.calls) : Quiet c c' :=
  ⟨.of_eq hs hc hn, hcalls, by rw [Context.streamCalls, Context.streamCalls, hs]⟩

theorem refl (c : Context) : Quiet c c := .of_eq rfl rfl rfl rfl

/-- The streams were not touched before. -/
theorem after (h : Quiet c' c'') (hs : c'.streams = c.streams) (hc : c'.isClient = c.isClient)
    (hn : c'.nextStreamId = c.nextStreamId) (hcalls : c'.calls = c.calls) : Quiet c c'' :=
  (of_eq hs hc hn hcalls).trans h

end Quiet

/-- **The application's end of a stream does not call into picoquic.** -/
theorem atStream_quiet {k : StreamRef} {e : Streams.Event} (he : e.atStream = true)
    (h : c.atStream k e = some c') : Quiet c c' := by
  have hs := atStream_same h
  rw [atStream] at h
  split at h
  · rename_i en hk
    obtain ⟨en', hen, h⟩ := Option.bind_eq_some_iff.mp h
    obtain rfl := Option.some.inj h
    obtain ⟨pair, hp, hen⟩ := Option.bind_eq_some_iff.mp hen
    obtain rfl := Option.some.inj hen
    have hcalls : pair.ctx.calls = en.pair.ctx.calls := by
      rcases Streams.Pair.step_cases hp with ⟨s, -, hs, hp⟩ | ⟨hat, -⟩ | ⟨rfl, -⟩
      · exact Streams.Pair.stepStream_calls hs hp
      · simp [he] at hat
      · rfl
    refine ⟨hs, rfl, ?_⟩
    obtain ⟨hlt, hk⟩ := List.getElem?_eq_some_iff.mp hk
    rw [streamCalls, List.map_set, streamCalls, hcalls, ← hk, ← List.map_set,
      List.set_getElem_self]
  · obtain rfl := Option.some.inj h
    exact .refl c

theorem dropStreams_quiet {ks : List StreamRef}
    (h : ks.foldlM (atStream · · .dropStream) c = some c') : Quiet c c' := by
  induction ks generalizing c with
  | nil =>
    obtain rfl : c = c' := by simpa using h
    exact .refl c
  | cons k ks ih =>
    rw [List.foldlM_cons] at h
    obtain ⟨c₁, hc₁, h⟩ := Option.bind_eq_some_iff.mp h
    exact (atStream_quiet rfl hc₁).trans (ih h)

theorem dropConnection_quiet (h : c.dropConnection = some c') : Quiet c c' := by
  obtain ⟨c₁, hc₁, h⟩ := Option.bind_eq_some_iff.mp h
  obtain rfl := Option.some.inj h
  exact (dropStreams_quiet hc₁).trans (.of_eq rfl rfl rfl rfl)

/-- **The requests are the same as before.** -/
structure SameRequests (c c' : Context) : Prop where
  queue : c'.recvCreateStream.chan.queue = c.recvCreateStream.chan.queue
  isOpen : c'.recvCreateStream.chan.isOpen = c.recvCreateStream.chan.isOpen
  next : c'.answers.next = c.answers.next

theorem SameRequests.refl (c : Context) : SameRequests c c := ⟨rfl, rfl, rfl⟩

end Context

/-! ### The steps -/

namespace Ends

open Context

variable {p p' : Ends} {e : Event}

/-- **What the application does to the context**: it makes no stream by itself, it does not
call into picoquic, and it leaves the requests alone unless it asks for a stream. -/
theorem stepApplication_spec (h : p.stepApplication e = some p') :
    p'.alive = p.alive ∧ p'.ctx.closed = p.ctx.closed ∧ Quiet p.ctx p'.ctx ∧
      ((∀ stype, e ≠ .newStream stype) → SameRequests p.ctx p'.ctx) := by
  have hvoid : some p = some p' → p'.alive = p.alive ∧ p'.ctx.closed = p.ctx.closed ∧
      Quiet p.ctx p'.ctx ∧ ((∀ stype, e ≠ .newStream stype) → SameRequests p.ctx p'.ctx) := by
    intro h
    obtain rfl := Option.some.inj h
    exact ⟨rfl, rfl, .refl _, fun _ => .refl _⟩
  cases e with
  | newStream stype =>
    simp only [stepApplication] at h
    split at h
    · obtain rfl := Option.some.inj h
      refine ⟨rfl, ?_, ?_, fun hno => absurd rfl (hno stype)⟩
      · rcases newStreamHandle_spec p.ctx stype with ⟨-, hc⟩ | ⟨-, hc⟩ <;> rw [hc]
      · rcases newStreamHandle_spec p.ctx stype with ⟨-, hc⟩ | ⟨-, hc⟩ <;> rw [hc] <;>
          exact .of_eq rfl rfl rfl rfl
    · exact hvoid h
  | cloneHandle =>
    simp only [stepApplication] at h
    split at h
    · obtain rfl := Option.some.inj h
      exact ⟨rfl, rfl, .of_eq rfl rfl rfl rfl, fun _ => ⟨rfl, rfl, rfl⟩⟩
    · exact hvoid h
  | dropHandle =>
    simp only [stepApplication] at h
    split at h
    · obtain rfl := Option.some.inj h
      exact ⟨rfl, rfl, .of_eq rfl rfl rfl rfl, fun _ => ⟨rfl, rfl, rfl⟩⟩
    · exact hvoid h
  | pollRequest r =>
    obtain ⟨o, c, hp⟩ : ∃ o c, p.ctx.pollRequest r = (o, c) := ⟨_, _, rfl⟩
    obtain ⟨answers, hc, hnext⟩ := pollRequest_frame p.ctx r
    simp only [stepApplication, hp] at h
    rw [hp] at hc
    obtain rfl : c = _ := hc
    obtain rfl := Option.some.inj h
    exact ⟨rfl, rfl, .of_eq rfl rfl rfl rfl, fun _ => ⟨rfl, rfl, hnext⟩⟩
  | dropRequest r =>
    obtain ⟨c, hc, h⟩ := Option.bind_eq_some_iff.mp h
    obtain rfl := Option.some.inj h
    simp only [dropRequest] at hc
    split at hc
    · have hquiet := (atStream_quiet rfl hc).after (c := p.ctx) rfl rfl rfl rfl
      obtain ⟨streams, rfl, -⟩ := atStream_spec hc
      exact ⟨rfl, rfl, hquiet, fun _ => ⟨rfl, rfl, rfl⟩⟩
    · obtain rfl := Option.some.inj hc
      exact ⟨rfl, rfl, .of_eq rfl rfl rfl rfl, fun _ => ⟨rfl, rfl, rfl⟩⟩
  | pollCreated =>
    obtain ⟨a, c, hp⟩ : ∃ a c, p.ctx.pollCreated = (a, c) := ⟨_, _, rfl⟩
    obtain ⟨created, hc, -⟩ := pollCreated_frame p.ctx
    simp only [stepApplication, hp] at h
    rw [hp] at hc
    obtain rfl : c = _ := hc
    obtain rfl := Option.some.inj h
    exact ⟨rfl, rfl, .of_eq rfl rfl rfl rfl, fun _ => ⟨rfl, rfl, rfl⟩⟩
  | dropCreated =>
    obtain ⟨c, hc, h⟩ := Option.bind_eq_some_iff.mp h
    obtain rfl := Option.some.inj h
    simp only [dropCreated] at hc
    split at hc
    · have hquiet := (dropConnection_quiet hc).after (c := p.ctx) rfl rfl rfl rfl
      obtain ⟨streams, rfl, -⟩ := dropConnection_spec hc
      exact ⟨rfl, rfl, hquiet, fun _ => ⟨rfl, rfl, rfl⟩⟩
    · obtain rfl := Option.some.inj hc
      exact ⟨rfl, rfl, .of_eq rfl rfl rfl rfl, fun _ => ⟨rfl, rfl, rfl⟩⟩
  | pollConnection =>
    simp only [stepApplication] at h
    split at h
    · obtain ⟨o, c, hp⟩ : ∃ o c, p.ctx.pollConnection = (o, c) := ⟨_, _, rfl⟩
      obtain ⟨sendMsg, hc⟩ := pollConnection_frame p.ctx
      simp only [hp] at h
      rw [hp] at hc
      obtain rfl : c = _ := hc
      obtain rfl := Option.some.inj h
      exact ⟨rfl, rfl, .of_eq rfl rfl rfl rfl, fun _ => ⟨rfl, rfl, rfl⟩⟩
    · exact hvoid h
  | dropConnection =>
    simp only [stepApplication] at h
    split at h
    · obtain ⟨c, hc, h⟩ := Option.bind_eq_some_iff.mp h
      obtain rfl := Option.some.inj h
      have hquiet := dropConnection_quiet hc
      obtain ⟨streams, rfl, -⟩ := dropConnection_spec hc
      exact ⟨rfl, rfl, hquiet, fun _ => ⟨rfl, rfl, rfl⟩⟩
    · exact hvoid h
  | closeImmediately =>
    simp only [stepApplication] at h
    split at h
    · obtain ⟨c, hc, h⟩ := Option.bind_eq_some_iff.mp h
      obtain rfl := Option.some.inj h
      have hquiet := (dropConnection_quiet hc).after (c := p.ctx) rfl rfl rfl rfl
      obtain ⟨streams, rfl, -⟩ := dropConnection_spec hc
      exact ⟨rfl, rfl, hquiet, fun _ => ⟨rfl, rfl, rfl⟩⟩
    · exact hvoid h
  | stream k e =>
    simp only [stepApplication] at h
    split at h
    · rename_i hat
      obtain ⟨c, hc, h⟩ := Option.bind_eq_some_iff.mp h
      obtain rfl := Option.some.inj h
      have hquiet := atStream_quiet hat hc
      obtain ⟨streams, rfl, -⟩ := atStream_spec hc
      exact ⟨rfl, rfl, hquiet, fun _ => ⟨rfl, rfl, rfl⟩⟩
    · exact hvoid h
  | _ => exact hvoid h

theorem stepApplication_quiet (h : p.stepApplication e = some p') : Quiet p.ctx p'.ctx :=
  (stepApplication_spec h).2.2.1

/-- **Only a drop drops the context.** -/
theorem step_alive (h : p.step e = some p') (hdrop : e.isDrop = false) : p'.alive = p.alive := by
  rw [step] at h
  split at h
  · split at h
    · cases e with
      | callback cb =>
        obtain ⟨c, -, h⟩ := Option.bind_eq_some_iff.mp h
        exact Option.some.inj h ▸ rfl
      | close codes =>
        obtain ⟨c, -, h⟩ := Option.bind_eq_some_iff.mp h
        exact Option.some.inj h ▸ rfl
      | poll =>
        obtain ⟨⟨r, c⟩, -, h⟩ := Option.bind_eq_some_iff.mp h
        exact Option.some.inj h ▸ rfl
      | drop => simp [Event.isDrop] at hdrop
      | _ => exact Option.some.inj h ▸ rfl
    · exact Option.some.inj h ▸ rfl
  · exact (stepApplication_spec h).1

/-- **The rule for the steps.** A property that does not see the events of the streams
survives a step if it survives the streams a callback or a poll creates. -/
theorem step_rule {P : Context → Prop} (hsame : ∀ c c', P c → Same c c' → P c') (h : P p.ctx)
    (hnew : ∀ id cb, e = .callback (.stream id cb) → id ≠ 0 → p.ctx.hasContext id = false →
      P (p.ctx.insertStream id false))
    (hcreate : e = .poll → ∀ c₁ c₂, P c₁ → c₁.recvCreateStream = p.ctx.recvCreateStream →
      c₁.nextStreamId = p.ctx.nextStreamId → c₁.checkCreateStreamRequests = some c₂ → P c₂)
    (hstep : p.step e = some p') : P p'.ctx := by
  rw [step] at hstep
  cases hat : atContext e with
  | false =>
    rw [if_neg (by simp [hat])] at hstep
    exact hsame _ _ h (stepApplication_quiet hstep).same
  | true =>
    rw [if_pos hat] at hstep
    split at hstep
    · cases e with
      | callback cb =>
        obtain ⟨c, hc, hstep⟩ := Option.bind_eq_some_iff.mp hstep
        obtain rfl := Option.some.inj hstep
        exact handleCallback_rule hsame h (fun id scb hcb => hnew id scb (by rw [hcb])) hc
      | close codes =>
        obtain ⟨c, hc, hstep⟩ := Option.bind_eq_some_iff.mp hstep
        obtain rfl := Option.some.inj hstep
        exact hsame _ _ h (handleClose_same hc)
      | poll =>
        obtain ⟨⟨r, c⟩, hc, hstep⟩ := Option.bind_eq_some_iff.mp hstep
        obtain rfl := Option.some.inj hstep
        exact poll_rule hsame h (hcreate rfl) hc
      | drop =>
        obtain ⟨c, hc, hstep⟩ := Option.bind_eq_some_iff.mp hstep
        obtain rfl := Option.some.inj hstep
        exact hsame _ _ h (drop_same hc)
      | _ => simp [atContext] at hat
    · obtain rfl := Option.some.inj hstep
      exact h

/-- **The rule for the runs.** A property of the streams that does not see their events,
and survives any stream added, survives every run. -/
theorem run_rule {P : Context → Prop}
    (hlater : ∀ c c', P c → Laters c.streams c'.streams → c'.isClient = c.isClient → P c')
    (hinsert : ∀ c id requested, P c → P (c.insertStream id requested)) {es : List Event}
    (h : P p.ctx) (hrun : p.run es = some p') : P p'.ctx := by
  have hsame : ∀ c c', P c → Same c c' → P c' :=
    fun c c' h hs => hlater c c' h hs.streams hs.isClient
  have hcreate : ∀ (c : Context) stype, P c → P (c.createStream stype) := fun c stype h =>
    hinsert _ _ _ (hlater c _ h (.refl _) rfl)
  refine Trace.run_keeps (P := fun p : Ends => P p.ctx) (fun p e _ p' h hstep => ?_) h hrun
  exact step_rule hsame h (fun id _ _ _ _ => hinsert _ id _ h)
    (fun _ _ _ h₁ _ _ hc => createStream_rule (fun c c' h hs _ => hsame c c' h hs)
      (fun c stype h _ _ => hcreate c stype h) h₁ hc)
    hstep

/-- **Every stream of a connection is in a state a run of a stream leads to.** -/
theorem run_sound {isClient : Bool} {es : List Event} (hrun : (new isClient).run es = some p) :
    p.ctx.isClient = isClient ∧ ∀ en ∈ p.ctx.streams, en.Sound isClient := by
  refine run_rule (P := fun c => c.isClient = isClient ∧ ∀ en ∈ c.streams, en.Sound isClient)
    ?_ ?_ ⟨rfl, by simp [new, Context.new]⟩ hrun
  · rintro c c' ⟨hc, hs⟩ hl hc'
    exact ⟨hc'.trans hc, hl.forall_mem (fun _ _ hl hs => hs.later hl) hs⟩
  · rintro c id requested ⟨hc, hs⟩
    refine ⟨hc, fun en hen => ?_⟩
    rcases List.mem_append.mp hen with hen | hen
    · exact hs en hen
    · obtain rfl := List.mem_singleton.mp hen
      rw [hc]
      exact Entry.new_sound id isClient requested

/-- **A stream keeps its place in every run**, and takes some more events. -/
theorem run_later {k : StreamRef} {en : Entry} {es : List Event} (hk : p.ctx.streams[k]? = some en)
    (hrun : p.run es = some p') : ∃ en', p'.ctx.streams[k]? = some en' ∧ en.Later en' := by
  refine run_rule (P := fun c => ∃ en', c.streams[k]? = some en' ∧ en.Later en')
    ?_ ?_ ⟨en, hk, .refl en⟩ hrun
  · rintro c c' ⟨en₁, hk₁, hl₁⟩ hl -
    obtain ⟨en₂, hk₂, hl₂⟩ := hl.getElem? hk₁
    exact ⟨en₂, hk₂, hl₁.trans hl₂⟩
  · rintro c id requested ⟨en', hk', hl'⟩
    have hlt := (List.getElem?_eq_some_iff.mp hk').choose
    exact ⟨en', by rw [insertStream, List.getElem?_append_left hlt, hk'], hl'⟩

end Ends

end Connections

end PicoquicRs
