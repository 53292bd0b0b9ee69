import PicoquicRs.Connections.Effects
import PicoquicRs.Connections.StreamIds

/-!
# The requests to create a stream, and the ids they get

Every request gets a number, and the stream it leads to an id made from this number. The
queue holds the requests that were not reached yet, so the counter of the context stands at
the number of the oldest of them (`PicoquicRs.Connections.Context.Numbered`). The map does
not matter for this: contexts leave it, and come back to it by callbacks that are late.
-/

namespace PicoquicRs

namespace Connections

open Futures

/-- The streams that were asked for are the same later on. -/
theorem Laters.requestedIds {l l' : List Entry} (h : Laters l l') :
    (l'.filter Entry.requested).map Entry.id = (l.filter Entry.requested).map Entry.id := by
  induction h with
  | nil => rfl
  | @cons en en' l l' hab _ ih =>
    rw [List.filter_cons, List.filter_cons, hab.requested]
    split
    · rw [List.map_cons, List.map_cons, hab.id, ih]
    · exact ih

namespace Context

variable {c c' : Context} {isClient : Bool} {done left : List SType}

/-- The ids of the streams that were created at the application's request, oldest first. -/
def requestedIds (c : Context) : List Id := (c.streams.filter Entry.requested).map Entry.id

/-- The ids for the first requests. -/
def idsOf (isClient : Bool) (types : List SType) : List Id :=
  types.mapIdx fun i stype => generateStreamId (UInt64.ofNat i) isClient stype

/-- **The requests are numbered**: streams were created for those in `done`, and the others
wait in the queue – unless the queue was closed, and they were turned down. -/
structure Numbered (c : Context) (isClient : Bool) (done left : List SType) : Prop where
  role : c.isClient = isClient
  answers : c.answers.next = done.length + left.length
  nextStreamId : c.nextStreamId = UInt64.ofNat done.length
  created : c.requestedIds = idsOf isClient done
  queue : c.recvCreateStream.chan.queue =
    if c.recvCreateStream.chan.isOpen then left.zipIdx done.length else []

namespace Numbered

theorem same (h : c.Numbered isClient done left) (hs : Same c c') (hr : SameRequests c c') :
    c'.Numbered isClient done left where
  role := hs.isClient.trans h.role
  answers := hr.next.trans h.answers
  nextStreamId := hs.nextStreamId.trans h.nextStreamId
  created := hs.streams.requestedIds.trans h.created
  queue := by rw [hr.queue, hr.isOpen, h.queue]

/-- The queue is closed, and emptied. -/
theorem shut (h : c.Numbered isClient done left) (hs : Same c c')
    (hq : c'.recvCreateStream.chan.queue = []) (ho : c'.recvCreateStream.chan.isOpen = false)
    (hn : c'.answers.next = c.answers.next) : c'.Numbered isClient done left where
  role := hs.isClient.trans h.role
  answers := hn.trans h.answers
  nextStreamId := hs.nextStreamId.trans h.nextStreamId
  created := hs.streams.requestedIds.trans h.created
  queue := by rw [hq, ho, if_neg Bool.false_ne_true]

/-- A stream of the peer is not numbered. -/
theorem insertStream (h : c.Numbered isClient done left) (id : Id) :
    (c.insertStream id false).Numbered isClient done left where
  role := h.role
  answers := h.answers
  nextStreamId := h.nextStreamId
  created := by
    rw [← h.created, requestedIds, requestedIds, Context.insertStream, List.filter_append]
    simp [Entry.new]
  queue := h.queue

/-- **The application makes a request.** -/
theorem newStreamHandle (h : c.Numbered isClient done left) (stype : SType) :
    (c.newStreamHandle stype).Numbered isClient done (left ++ [stype]) := by
  have hnext : c.answers.next + 1 = done.length + (left ++ [stype]).length := by
    rw [h.answers, List.length_append, List.length_singleton, Nat.add_assoc]
  rcases newStreamHandle_spec c stype with ⟨ho, hc⟩ | ⟨ho, hc⟩
  · rw [hc]
    refine ⟨h.role, hnext, h.nextStreamId, h.created, ?_⟩
    have hq := h.queue
    rw [ho, if_pos rfl] at hq
    simp only [Chan.push_queue, Chan.push_isOpen, ho, if_true, hq, h.answers]
    rw [List.zipIdx_append]
    rfl
  · rw [hc]
    refine ⟨h.role, hnext, h.nextStreamId, h.created, ?_⟩
    have hq := h.queue
    rw [ho, if_neg Bool.false_ne_true] at hq
    simp only [ho, Bool.false_eq_true, if_false, hq]

/-- **A stream is created** for the oldest request. -/
theorem createStream {stype : SType} {r : RequestRef} {q : List (SType × RequestRef)}
    {streams : List Entry} (h : c.Numbered isClient done left)
    (hq : c.recvCreateStream.chan.queue = (stype, r) :: q)
    (hl : Laters (c.createStream stype).streams streams)
    (answers : Store (Oneshot (Except Error StreamRef))) (hn : answers.next = c.answers.next) :
    ∃ left', left = stype :: left' ∧ r = done.length ∧
      { c.createStream stype with streams, answers }.Numbered isClient (done ++ [stype]) left' := by
  have hqueue := h.queue
  rw [hq] at hqueue
  cases ho : c.recvCreateStream.chan.isOpen with
  | false => simp [ho] at hqueue
  | true =>
    rw [ho, if_pos rfl] at hqueue
    rcases left with _ | ⟨stype', left'⟩
    · simp at hqueue
    · rw [List.zipIdx_cons] at hqueue
      obtain ⟨hhead, rfl⟩ := List.cons.inj hqueue
      obtain ⟨rfl, rfl⟩ := Prod.mk.inj hhead
      have hpoll : c.recvCreateStream.poll.2.chan.queue = left'.zipIdx (done.length + 1) ∧
          c.recvCreateStream.poll.2.chan.isOpen = true := by
        constructor
        · exact (Chan.poll_queue).trans (by rw [hq, List.tail_cons])
        · exact (Chan.poll_isOpen).trans ho
      refine ⟨left', rfl, rfl, h.role, ?_, ?_, ?_, ?_⟩
      · rw [hn, h.answers, List.length_append, List.length_cons, List.length_singleton]
        omega
      · change c.nextStreamId + 1 = _
        rw [h.nextStreamId, List.length_append, List.length_singleton, UInt64.ofNat_add]
        rfl
      · refine hl.requestedIds.trans ?_
        change ((c.streams ++ [_]).filter Entry.requested).map Entry.id = _
        rw [List.filter_append, List.map_append, idsOf, List.mapIdx_concat]
        refine congrArg₂ (· ++ ·) h.created ?_
        rw [h.nextStreamId, h.role]
        rfl
      · change c.recvCreateStream.poll.2.chan.queue =
          if c.recvCreateStream.poll.2.chan.isOpen then _ else []
        rw [hpoll.1, hpoll.2, if_pos rfl, List.length_append, List.length_singleton]

/-- **An open queue is worked off.** A closed one holds nothing. -/
theorem checkCreateStreamRequests (h : c.Numbered isClient done left)
    (hc : c.checkCreateStreamRequests = some c') :
    c'.recvCreateStream.chan.isOpen = c.recvCreateStream.chan.isOpen ∧
      if c.recvCreateStream.chan.isOpen then c'.Numbered isClient (done ++ left) []
      else c'.Numbered isClient done left := by
  refine checkCreateStreamRequests_rule
    (P := fun c' => c'.recvCreateStream.chan.isOpen = c.recvCreateStream.chan.isOpen ∧
      ∃ done' left', done' ++ left' = done ++ left ∧ c'.Numbered isClient done' left' ∧
        (c.recvCreateStream.chan.isOpen = false → done' = done))
    (Q := fun c' => c'.recvCreateStream.chan.isOpen = c.recvCreateStream.chan.isOpen ∧
      if c.recvCreateStream.chan.isOpen then c'.Numbered isClient (done ++ left) []
      else c'.Numbered isClient done left) ?_ ?_
    ⟨rfl, done, left, rfl, h, fun _ => rfl⟩ hc
  · rintro c₁ stype r q streams ⟨ho, done', left', hall, h, hshut⟩ hq - hl
    obtain ⟨left'', rfl, -, h'⟩ := h.createStream hq hl
      (c₁.answers.modify r (Oneshot.send · (.ok c₁.streams.length))) rfl
    refine ⟨(Chan.poll_isOpen).trans ho, done' ++ [stype], left'', ?_, h', fun hclosed => ?_⟩
    · rw [List.append_assoc, List.singleton_append, hall]
    · have := h.queue
      rw [hq, ho, hclosed] at this
      simp at this
  · rintro c₁ ⟨ho, done', left', hall, h, hshut⟩ hq
    have hpoll : SameRequests c₁ { c₁ with recvCreateStream := c₁.recvCreateStream.poll.2 } :=
      ⟨(Chan.poll_queue).trans (by rw [hq]; rfl), Chan.poll_isOpen, rfl⟩
    have h' : { c₁ with recvCreateStream := c₁.recvCreateStream.poll.2 }.Numbered
        isClient done' left' :=
      h.same (.of_eq rfl rfl rfl) hpoll
    refine ⟨hpoll.isOpen.trans ho, ?_⟩
    cases hopen : c.recvCreateStream.chan.isOpen with
    | true =>
      have hqueue := h.queue
      rw [hq, ho, hopen, if_pos rfl] at hqueue
      obtain rfl := List.zipIdx_eq_nil_iff.mp hqueue.symm
      rw [List.append_nil] at hall
      rw [if_pos rfl, ← hall]
      exact h'
    | false =>
      obtain rfl := hshut hopen
      rw [if_neg Bool.false_ne_true, ← List.append_cancel_left hall]
      exact h'

/-- The functions that touch neither the queue nor the counter. -/
theorem handleCallback (h : c.Numbered isClient done left) {cb : Callback}
    (hc : c.handleCallback cb = some c') : c'.Numbered isClient done left := by
  cases cb with
  | almostReady =>
    rw [Context.handleCallback] at hc
    split at hc
    · refine h.same (processWaitForReadyState_same hc) ?_
      obtain ⟨-, c₁, rfl, ⟨-, rfl⟩ | ⟨-, hdrop⟩⟩ := processWaitForReadyState_spec hc
      · exact ⟨rfl, rfl, rfl⟩
      · obtain ⟨streams, rfl, -⟩ := dropConnection_spec hdrop
        exact ⟨rfl, rfl, rfl⟩
    · obtain rfl := Option.some.inj hc
      exact h
  | stream id scb =>
    rw [Context.handleCallback] at hc
    split at hc
    · rcases handleStreamCallback_spec hc with ⟨-, streams, rfl, hl⟩ | ⟨-, streams, rfl, hl⟩
      · exact h.same ⟨hl, rfl, rfl⟩ ⟨rfl, rfl, rfl⟩
      · exact (h.insertStream id).same ⟨hl, rfl, rfl⟩ ⟨rfl, rfl, rfl⟩
    · obtain rfl := Option.some.inj hc
      exact h

theorem close (h : c.Numbered isClient done left) (hc : c.close = some c') :
    c'.Numbered isClient done left := by
  refine h.same (close_same hc) ?_
  obtain ⟨streams, rfl, -⟩ := close_spec hc
  exact ⟨rfl, rfl, rfl⟩

theorem failAll_next (err : Error) (queue : List (SType × RequestRef))
    (answers : Store (Oneshot (Except Error StreamRef))) :
    (failAll err queue answers).next = answers.next := by
  induction queue generalizing answers with
  | nil => rfl
  | cons request queue ih => exact ih _

theorem dropAll_next (queue : List (SType × RequestRef))
    (answers : Store (Oneshot (Except Error StreamRef))) :
    (dropAll queue answers).next = answers.next := by
  induction queue generalizing answers with
  | nil => rfl
  | cons request queue ih => exact ih _

theorem handleClose (h : c.Numbered isClient done left) {codes : Codes}
    (hc : c.handleClose codes = some c') : c'.Numbered isClient done left := by
  obtain ⟨c₁, hc₁, hc⟩ := Option.bind_eq_some_iff.mp hc
  refine Numbered.close ?_ hc
  cases herr : codes.error.1 with
  | none =>
    obtain rfl := checkAndHandleError_none herr hc₁
    exact h.same (.of_eq rfl rfl rfl) ⟨rfl, rfl, rfl⟩
  | some err =>
    obtain ⟨streams, chan, c₂, hl, hq, ho, rfl, ⟨-, hdrop⟩ | ⟨-, rfl⟩⟩ :=
      checkAndHandleError_found herr hc₁
    · obtain ⟨streams', rfl, hl'⟩ := dropConnection_spec hdrop
      exact h.shut ⟨hl.trans hl', rfl, rfl⟩ hq ho (failAll_next _ _ _)
    · exact h.shut ⟨hl, rfl, rfl⟩ hq ho (failAll_next _ _ _)

/-- **A poll** creates streams for all requests that wait. -/
theorem poll (h : c.Numbered isClient done left) {r : Async Unit} (hc : c.poll = some (r, c')) :
    if c.closed = false ∧ c.recvCreateStream.chan.isOpen = true then
      c'.Numbered isClient (done ++ left) []
    else c'.Numbered isClient done left := by
  rcases poll_spec hc with ⟨hcl, rfl⟩ | ⟨hcl, streams, c₂, hl, hc₂, hend⟩
  · rw [if_neg (by simp [hcl])]
    exact h
  · have h₁ : { c with streams }.Numbered isClient done left :=
      h.same ⟨hl, rfl, rfl⟩ ⟨rfl, rfl, rfl⟩
    have hfinish : ∀ done left, c₂.Numbered isClient done left →
        c'.Numbered isClient done left := by
      intro done left h₂
      have h₃ : { c₂ with closeRecv := c₂.closeRecv.poll.2 }.Numbered isClient done left :=
        h₂.same (.of_eq rfl rfl rfl) ⟨rfl, rfl, rfl⟩
      rcases hend with ⟨-, hclose⟩ | ⟨-, rfl⟩
      · exact Numbered.close h₃ hclose
      · exact h₃
    have h₂ := (h₁.checkCreateStreamRequests hc₂).2
    simp only [hcl, true_and]
    split at h₂
    · rw [if_pos ‹_›]
      exact hfinish _ _ h₂
    · rw [if_neg ‹_›]
      exact hfinish _ _ h₂

theorem drop (h : c.Numbered isClient done left) (hc : c.drop = some c') :
    c'.Numbered isClient done left := by
  have hs := drop_same hc
  obtain ⟨streams, c₁, hl, ⟨-, hdrop⟩ | ⟨-, rfl⟩, rfl⟩ := drop_spec hc
  · obtain ⟨streams', rfl, hl'⟩ := dropConnection_spec hdrop
    exact h.shut hs rfl rfl (dropAll_next _ _)
  · exact h.shut hs rfl rfl (dropAll_next _ _)

end Numbered

/-- **The context has a stream of one's own only if it was asked for.** -/
def Own (c : Context) : Prop :=
  ∀ en ∈ c.streams, Streams.isClientInitiated en.id = c.isClient → en.id ∈ c.requestedIds

namespace Own

theorem same (h : c.Own) (hs : Same c c') : c'.Own := by
  rw [Own, requestedIds, hs.streams.requestedIds, hs.isClient]
  exact hs.streams.forall_mem (fun en en' hl hen hown => by
    rw [hl.id] at hown ⊢
    exact hen hown) h

/-- A stream of the peer is added, or one that was asked for before comes back. -/
theorem insertStream (h : c.Own) {id : Id}
    (hid : Streams.isClientInitiated id = c.isClient → id ∈ c.requestedIds) :
    (c.insertStream id false).Own := by
  have hreq : (c.insertStream id false).requestedIds = c.requestedIds := by
    rw [requestedIds, requestedIds, Context.insertStream, List.filter_append]
    simp [Entry.new]
  intro en hen hown
  rw [hreq]
  rcases List.mem_append.mp hen with hen | hen
  · exact h en hen hown
  · obtain rfl := List.mem_singleton.mp hen
    exact hid hown

theorem createStream (h : c.Own) (stype : SType) : (c.createStream stype).Own := by
  have hreq : (c.createStream stype).requestedIds =
      c.requestedIds ++ [generateStreamId c.nextStreamId c.isClient stype] := by
    change ((c.streams ++ [_]).filter Entry.requested).map Entry.id = _
    rw [List.filter_append, List.map_append]
    rfl
  intro en hen hown
  rw [hreq, List.mem_append]
  rcases List.mem_append.mp hen with hen | hen
  · exact Or.inl (h en hen hown)
  · obtain rfl := List.mem_singleton.mp hen
    exact Or.inr (List.mem_singleton_self _)

theorem checkCreateStreamRequests (h : c.Own) (hc : c.checkCreateStreamRequests = some c') :
    c'.Own :=
  checkCreateStreamRequests_rule (P := Own) (Q := Own)
    (fun _ stype _ _ _ h _ _ hl => (h.createStream stype).same ⟨hl, rfl, rfl⟩)
    (fun _ h _ => h.same (.of_eq rfl rfl rfl)) h hc

end Own

end Context

/-! ### Steps -/

namespace Ends

open Context

variable {p p' : Ends} {e : Event} {isClient : Bool} {done left : List SType}

/-- The type the application asks for, if the event is a create request. -/
def requests (p : Ends) : Event → List SType
  | .newStream stype => if p.connection || decide (0 < p.handles) then [stype] else []
  | _ => []

/-- **What picoquic keeps to.** A callback for a stream of one's own comes only after the
stream was created. The id `0` stands for the connection. -/
def ownCreated (p : Ends) : Event → Bool
  | .callback (.stream id _) => id == 0 || Streams.isClientInitiated id != p.ctx.isClient ||
      p.ctx.streams.any fun en => en.requested && en.id == id
  | _ => true

/-- **Only a create request makes one.** -/
theorem stepApplication_requests (hno : p.requests e = []) (h : p.stepApplication e = some p') :
    SameRequests p.ctx p'.ctx := by
  by_cases hnew : ∃ stype, e = .newStream stype
  · obtain ⟨stype, rfl⟩ := hnew
    simp only [requests] at hno
    simp only [stepApplication] at h
    split at h
    · simp [‹_ = true›] at hno
    · obtain rfl := Option.some.inj h
      exact .refl _
  · exact (stepApplication_spec h).2.2.2 fun stype he => hnew ⟨stype, he⟩

theorem stepApplication_numbered (h : p.ctx.Numbered isClient done left)
    (hstep : p.stepApplication e = some p') :
    p'.ctx.Numbered isClient done (left ++ p.requests e) := by
  by_cases hno : p.requests e = []
  · rw [hno, List.append_nil]
    exact h.same (stepApplication_quiet hstep).same (stepApplication_requests hno hstep)
  · obtain ⟨stype, rfl⟩ : ∃ stype, e = .newStream stype := by
      cases e <;> first | exact ⟨_, rfl⟩ | exact absurd rfl hno
    simp only [requests] at hno ⊢
    simp only [stepApplication] at hstep
    split at hstep
    · rename_i hhas
      obtain rfl := Option.some.inj hstep
      rw [if_pos hhas]
      exact h.newStreamHandle stype
    · rename_i hhas
      exact absurd (if_neg hhas) hno

theorem requests_eq_nil (he : atContext e = true) : p.requests e = [] := by
  cases e <;> first | rfl | simp [atContext] at he

/-- **Every step keeps the numbers.** Requests leave the queue in order. -/
theorem step_numbered (h : p.ctx.Numbered isClient done left) (hstep : p.step e = some p') :
    ∃ done' left', done' ++ left' = done ++ left ++ p.requests e ∧
      p'.ctx.Numbered isClient done' left' := by
  rw [step] at hstep
  cases hat : atContext e with
  | false =>
    rw [if_neg (by simp [hat])] at hstep
    exact ⟨done, left ++ p.requests e, (List.append_assoc _ _ _).symm,
      stepApplication_numbered h hstep⟩
  | true =>
    rw [requests_eq_nil hat, List.append_nil]
    rw [if_pos hat] at hstep
    split at hstep
    · cases e with
      | callback cb =>
        obtain ⟨c, hc, hstep⟩ := Option.bind_eq_some_iff.mp hstep
        obtain rfl := Option.some.inj hstep
        exact ⟨done, left, rfl, h.handleCallback hc⟩
      | close codes =>
        obtain ⟨c, hc, hstep⟩ := Option.bind_eq_some_iff.mp hstep
        obtain rfl := Option.some.inj hstep
        exact ⟨done, left, rfl, h.handleClose hc⟩
      | poll =>
        obtain ⟨⟨r, c⟩, hc, hstep⟩ := Option.bind_eq_some_iff.mp hstep
        obtain rfl := Option.some.inj hstep
        have h' := h.poll hc
        split at h'
        · exact ⟨done ++ left, [], List.append_nil _, h'⟩
        · exact ⟨done, left, rfl, h'⟩
      | drop =>
        obtain ⟨c, hc, hstep⟩ := Option.bind_eq_some_iff.mp hstep
        obtain rfl := Option.some.inj hstep
        exact ⟨done, left, rfl, h.drop hc⟩
      | _ => simp [atContext] at hat
    · obtain rfl := Option.some.inj hstep
      exact ⟨done, left, rfl, h⟩

/-- **Every step adds only streams of one's own that were asked for.** -/
theorem step_own (h : p.ctx.Own) (hok : p.ownCreated e = true) (hstep : p.step e = some p') :
    p'.ctx.Own := by
  refine step_rule (P := Context.Own) (fun _ _ h hs => h.same hs) h ?_ ?_ hstep
  · rintro id cb rfl hid -
    refine h.insertStream fun hown => ?_
    simp only [ownCreated, beq_false_of_ne hid, hown, bne_self_eq_false, Bool.false_or] at hok
    obtain ⟨en, hen, heq⟩ := List.any_eq_true.mp hok
    rw [Bool.and_eq_true, beq_iff_eq] at heq
    exact List.mem_map.mpr ⟨en, List.mem_filter.mpr ⟨hen, heq.1⟩, heq.2⟩
  · rintro - c₁ c₂ h₁ - - hc
    exact h₁.checkCreateStreamRequests hc

end Ends

end Connections

end PicoquicRs
