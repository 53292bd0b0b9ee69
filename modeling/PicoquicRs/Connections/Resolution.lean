import PicoquicRs.Connections.Total

/-!
# What becomes of the create requests, and of an error of the connection

A create request takes one of three ways: a poll of the context reaches it, and it gets a
stream; it waits in the queue when the connection fails, and the context turns it down; or
it comes after that, and its sender finds the error left at the closed queue.

The error itself goes to whoever waits for the `Connection`, while that is held back, and to
the `Connection` once it is out. Who holds what is said by one invariant for the time before
the error (`PicoquicRs.Connections.Ends.Before`), and by three for the time after it.
-/

namespace PicoquicRs

namespace Connections

open Futures

/-- The context is polled. -/
def Event.isPoll : Event → Bool
  | .poll => true
  | _ => false

/-- The context is closed or dropped. -/
def Event.endsContext : Event → Bool
  | .close _ | .drop => true
  | _ => false

namespace Context

variable {c c' : Context} {isClient : Bool} {done left : List SType}
variable {resolved resolved' : List (RequestRef × Except Error StreamRef)} {r : RequestRef}
variable {stype : SType}

/-- What the application was told about a request, and what it is still going to be told. -/
def answersTo (c : Context) (resolved : List (RequestRef × Except Error StreamRef))
    (r : RequestRef) : List (Except Error StreamRef) :=
  (resolved.filter (·.1 == r)).map Prod.snd ++ (c.answers.cell r).value.toList

/-- **The request got a stream**, of the type that was asked for, and no other answer. -/
def GotStream (c : Context) (resolved : List (RequestRef × Except Error StreamRef))
    (r : RequestRef) (stype : SType) : Prop :=
  ∃ k en, c.answersTo resolved r = [.ok k] ∧ c.streams[k]? = some en ∧ en.requested = true ∧
    Streams.isUnidirectional en.id = (stype == .unidirectional)

/-- **The request was not answered**, and somebody waits for the answer. -/
structure Unanswered (c : Context) (resolved : List (RequestRef × Except Error StreamRef))
    (r : RequestRef) : Prop where
  nothing : c.answersTo resolved r = []
  pending : (c.answers.cell r).pending = true
  receiver : (c.answers.cell r).receiver = true

/-- **The streams keep their places.** -/
def Keeps (c c' : Context) : Prop :=
  ∀ (k : StreamRef) (en : Entry), c.streams[k]? = some en →
    ∃ en', c'.streams[k]? = some en' ∧ en.Later en'

theorem Keeps.of_laters (hl : Laters c.streams c'.streams) : Keeps c c' :=
  fun _ _ hk => hl.getElem? hk

theorem Keeps.of_eq (hs : c'.streams = c.streams) : Keeps c c' := .of_laters (hs ▸ .refl _)

theorem Keeps.trans {c'' : Context} (h : Keeps c c') (h' : Keeps c' c'') : Keeps c c'' := by
  intro k en hk
  obtain ⟨en', hk', hl⟩ := h k en hk
  obtain ⟨en'', hk'', hl'⟩ := h' k en' hk'
  exact ⟨en'', hk'', hl.trans hl'⟩

theorem insertStream_keeps (c : Context) (id : Id) (requested : Bool) :
    Keeps c (c.insertStream id requested) := by
  intro k en hk
  have hlt := (List.getElem?_eq_some_iff.mp hk).choose
  exact ⟨en, by rw [insertStream, List.getElem?_append_left hlt, hk], .refl en⟩

theorem createStream_keeps (c : Context) (stype : SType) : Keeps c (c.createStream stype) :=
  insertStream_keeps { c with
    recvCreateStream := c.recvCreateStream.poll.2, nextStreamId := c.nextStreamId + 1 } _ _

theorem GotStream.keeps (h : c.GotStream resolved r stype) (hk : Keeps c c')
    (ha : c'.answersTo resolved' r = c.answersTo resolved r) : c'.GotStream resolved' r stype := by
  obtain ⟨k, en, hans, hen, hreq, hid⟩ := h
  obtain ⟨en', hen', hl⟩ := hk k en hen
  exact ⟨k, en', ha.trans hans, hen', hl.requested.trans hreq, by rw [hl.id, hid]⟩

theorem Unanswered.of_cell (h : c.Unanswered resolved r)
    (ha : c'.answers.cell r = c.answers.cell r) : c'.Unanswered resolved r where
  nothing := by
    rw [answersTo, ha]
    exact h.nothing
  pending := by rw [ha, h.pending]
  receiver := by rw [ha, h.receiver]

/-- Only its own cell counts for a request. -/
theorem answersTo_congr (ha : c'.answers.cell r = c.answers.cell r) :
    c'.answersTo resolved r = c.answersTo resolved r := by rw [answersTo, ha, answersTo]

/-- **An answer to a request that waits** arrives, and no other does. -/
theorem Unanswered.answersTo_send (h : c.Unanswered resolved r) (a : Except Error StreamRef)
    (hc : c'.answers.cell r = (c.answers.cell r).send a) : c'.answersTo resolved r = [a] := by
  have hnothing := h.nothing
  rw [answersTo, List.append_eq_nil_iff] at hnothing
  rw [answersTo, hnothing.1, hc, Oneshot.send, h.receiver]
  rfl

/-! ### Before the error -/

/-- **The requests are served**: those in `done` got a stream, and those in `left` and those
to come were not answered. -/
structure Serving (c : Context) (resolved : List (RequestRef × Except Error StreamRef))
    (isClient : Bool) (done left : List SType) : Prop where
  numbered : c.Numbered isClient done left
  isOpen : c.recvCreateStream.chan.isOpen = true
  closed : c.closed = false
  closeRecv : c.closeRecv.value = none
  created : ∀ r stype, done[r]? = some stype → c.GotStream resolved r stype
  waiting : ∀ r, done.length ≤ r → c.Unanswered resolved r

namespace Serving

/-- What has nothing to do with the requests. -/
theorem keeps (h : c.Serving resolved isClient done left) (hn : c'.Numbered isClient done left)
    (hk : Keeps c c') (ho : c'.recvCreateStream.chan.isOpen = c.recvCreateStream.chan.isOpen)
    (hcl : c'.closed = c.closed) (hv : c'.closeRecv.value = c.closeRecv.value)
    (ha : c'.answers = c.answers) : c'.Serving resolved isClient done left where
  numbered := hn
  isOpen := ho.trans h.isOpen
  closed := hcl.trans h.closed
  closeRecv := hv.trans h.closeRecv
  created r stype hr := (h.created r stype hr).keeps hk (answersTo_congr (by rw [ha]))
  waiting r hr := (h.waiting r hr).of_cell (by rw [ha])

/-- A request is made. -/
theorem newStreamHandle (h : c.Serving resolved isClient done left) (stype : SType) :
    (c.newStreamHandle stype).Serving resolved isClient done (left ++ [stype]) := by
  have hn := h.numbered.newStreamHandle stype
  rcases newStreamHandle_spec c stype with ⟨ho, hc⟩ | ⟨ho, -⟩
  · rw [hc] at hn ⊢
    refine ⟨hn, h.isOpen, h.closed, h.closeRecv, fun r t hr => ?_, fun r hr => ?_⟩
    · have hlt := (List.getElem?_eq_some_iff.mp hr).choose
      refine (h.created r t hr).keeps (.of_eq rfl) (answersTo_congr ?_)
      refine c.answers.alloc_cell_of_lt _ ?_
      rw [h.numbered.answers]
      omega
    · rcases eq_or_ne r c.answers.next with rfl | hne
      · have hnothing := (h.waiting _ hr).nothing
        rw [answersTo, List.append_eq_nil_iff] at hnothing
        refine ⟨?_, ?_, ?_⟩
        · rw [answersTo, hnothing.1]
          simp only [Store.alloc_cell_self]
          rfl
        · simp only [Store.alloc_cell_self]
          rfl
        · simp only [Store.alloc_cell_self]
          rfl
      · exact (h.waiting r hr).of_cell (c.answers.alloc_cell_of_ne _ hne)
  · exact absurd (h.isOpen.symm.trans ho) (by simp)

/-- **The oldest request gets its stream.** -/
theorem createStream {stype : SType} {r : RequestRef} {q : List (SType × RequestRef)}
    {streams : List Entry} (h : c.Serving resolved isClient done left)
    (hq : c.recvCreateStream.chan.queue = (stype, r) :: q)
    (hl : Laters (c.createStream stype).streams streams) :
    ∃ left', left = stype :: left' ∧
      { c.createStream stype with
        streams, answers := c.answers.modify r (Oneshot.send · (.ok c.streams.length)) }.Serving
        resolved isClient (done ++ [stype]) left' := by
  obtain ⟨left', rfl, rfl, hn⟩ := h.numbered.createStream hq hl
    (c.answers.modify r (Oneshot.send · (.ok c.streams.length))) rfl
  have hkeeps : Keeps c { c.createStream stype with
      streams, answers := c.answers.modify done.length (Oneshot.send · (.ok c.streams.length)) } :=
    (createStream_keeps c stype).trans (.of_laters hl)
  have hother : ∀ r, r ≠ done.length → (c.answers.modify done.length
      (Oneshot.send · (.ok c.streams.length))).cell r = c.answers.cell r :=
    fun r hr => c.answers.modify_cell_of_ne _ hr
  have hself : (c.answers.modify done.length (Oneshot.send · (.ok c.streams.length))).cell
      done.length = (c.answers.cell done.length).send (.ok c.streams.length) :=
    c.answers.modify_cell_self _ _
  refine ⟨left', rfl, hn, (Chan.poll_isOpen).trans h.isOpen, h.closed, h.closeRecv,
    fun r t hr => ?_, fun r hr => ?_⟩
  · rcases Nat.lt_or_ge r done.length with hlt | hge
    · rw [List.getElem?_append_left hlt] at hr
      exact (h.created r t hr).keeps hkeeps (answersTo_congr (hother r hlt.ne))
    · obtain rfl : r = done.length := by
        have hlt := (List.getElem?_eq_some_iff.mp hr).choose
        rw [List.length_append, List.length_singleton] at hlt
        exact Nat.le_antisymm (Nat.le_of_lt_succ hlt) hge
      obtain rfl : stype = t := by simpa using hr
      -- the stream is the last one that was made
      have hlast : (c.createStream stype).streams[c.streams.length]? = some (Entry.new
          (generateStreamId c.nextStreamId c.isClient stype) c.isClient true) := by
        change (c.streams ++ [_])[c.streams.length]? = _
        rw [List.getElem?_append_right (Nat.le_refl _), Nat.sub_self]
        rfl
      obtain ⟨en, hen, hlater⟩ := hl.getElem? hlast
      refine ⟨c.streams.length, en, ?_, hen, hlater.requested, ?_⟩
      · exact (h.waiting _ (Nat.le_refl _)).answersTo_send _ hself
      · rw [hlater.id]
        exact isUnidirectional_generateStreamId _ _ _
  · rw [List.length_append, List.length_singleton] at hr
    exact (h.waiting r (by omega)).of_cell (hother r (by omega))

/-- **A poll answers all requests there are.** -/
theorem poll (h : c.Serving resolved isClient done left) {a : Async Unit}
    (hc : c.poll = some (a, c')) :
    c'.Serving resolved isClient (done ++ left) [] ∧ c'.sendMsg = c.sendMsg ∧
      c'.created = c.created ∧ c'.waitForReadyState = c.waitForReadyState := by
  rcases poll_spec hc with ⟨hcl, -⟩ | ⟨-, streams, c₂, hl, hc₂, hend⟩
  · exact absurd (h.closed.symm.trans hcl) (by simp)
  · have h₁ : { c with streams }.Serving resolved isClient done left :=
      h.keeps (h.numbered.same ⟨hl, rfl, rfl⟩ ⟨rfl, rfl, rfl⟩) (.of_laters hl) rfl rfl rfl rfl
    have h₂ : c₂.Serving resolved isClient (done ++ left) [] ∧ c₂.sendMsg = c.sendMsg ∧
        c₂.created = c.created ∧ c₂.waitForReadyState = c.waitForReadyState := by
      refine checkCreateStreamRequests_rule
        (P := fun c' => (∃ done' left', done' ++ left' = done ++ left ∧
          c'.Serving resolved isClient done' left') ∧ c'.sendMsg = c.sendMsg ∧
            c'.created = c.created ∧ c'.waitForReadyState = c.waitForReadyState)
        (Q := fun c' => c'.Serving resolved isClient (done ++ left) [] ∧ c'.sendMsg = c.sendMsg ∧
          c'.created = c.created ∧ c'.waitForReadyState = c.waitForReadyState)
        ?_ ?_ ⟨⟨done, left, rfl, h₁⟩, rfl, rfl, rfl⟩ hc₂
      · rintro c₁ stype r q streams ⟨⟨done', left', hall, h⟩, hframe⟩ hq - hl
        obtain ⟨left'', rfl, h'⟩ := h.createStream hq hl
        exact ⟨⟨done' ++ [stype], left'', by rw [← hall, List.append_assoc]; rfl, h'⟩, hframe⟩
      · rintro c₁ ⟨⟨done', left', hall, h⟩, hframe⟩ hq
        have hqueue := h.numbered.queue
        rw [hq, h.isOpen, if_pos rfl] at hqueue
        obtain rfl := List.zipIdx_eq_nil_iff.mp hqueue.symm
        rw [← hall, List.append_nil]
        have hn : { c₁ with recvCreateStream := c₁.recvCreateStream.poll.2 }.Numbered
            isClient done' [] := h.numbered.same (.of_eq rfl rfl rfl)
          ⟨(Chan.poll_queue).trans (by rw [hq]; rfl), Chan.poll_isOpen, rfl⟩
        exact ⟨h.keeps hn (.of_eq rfl) Chan.poll_isOpen rfl rfl rfl, hframe⟩
    obtain ⟨h₂, hframe⟩ := h₂
    have hpoll : c₂.closeRecv.poll.1 ≠ .ok (.ready ()) ∧ c₂.closeRecv.poll.2.value = none := by
      rw [Oneshot.poll, h₂.closeRecv]
      cases c₂.closeRecv.pending <;> exact ⟨by simp, rfl⟩
    rcases hend with ⟨hready, -⟩ | ⟨-, rfl⟩
    · exact absurd hready hpoll.1
    · exact ⟨h₂.keeps (h₂.numbered.same (.of_eq rfl rfl rfl) ⟨rfl, rfl, rfl⟩) (.of_eq rfl) rfl rfl
        (hpoll.2.trans h₂.closeRecv.symm) rfl, hframe⟩

end Serving

/-! ### After the error -/

/-- **The other requests are turned down** with the error, now and later. -/
structure Failing (c : Context) (resolved : List (RequestRef × Except Error StreamRef))
    (isClient : Bool) (done left : List SType) (err : Error) : Prop where
  numbered : c.Numbered isClient done left
  isOpen : c.recvCreateStream.chan.isOpen = false
  errorState : c.recvCreateStream.errorState = some err
  closed : c.closed = true
  created : ∀ r stype, done[r]? = some stype → c.GotStream resolved r stype
  failed : ∀ r, done.length ≤ r → r < c.answers.next → c.answersTo resolved r = [.error err]
  waiting : ∀ r, c.answers.next ≤ r → c.Unanswered resolved r

theorem failAll_cell {err : Error} {queue : List (SType × RequestRef)}
    {answers : Store (Oneshot (Except Error StreamRef))} (hn : (queue.map Prod.snd).Nodup) :
    (failAll err queue answers).cell r =
      if r ∈ queue.map Prod.snd then (answers.cell r).send (.error err) else answers.cell r := by
  induction queue generalizing answers with
  | nil => rfl
  | cons request queue ih =>
    rw [List.map_cons, List.nodup_cons] at hn
    rw [failAll, List.foldl_cons]
    refine (ih hn.2).trans ?_
    rw [List.map_cons]
    rcases eq_or_ne r request.2 with rfl | hne
    · rw [if_neg hn.1, if_pos List.mem_cons_self, Store.modify_cell_self]
    · rw [Store.modify_cell_of_ne _ _ hne]
      simp only [List.mem_cons, hne, false_or]

namespace Failing

variable {err : Error}

/-- What has nothing to do with the requests. -/
theorem keeps (h : c.Failing resolved isClient done left err)
    (hn : c'.Numbered isClient done left) (hk : Keeps c c')
    (ho : c'.recvCreateStream.chan.isOpen = false)
    (he : c'.recvCreateStream.errorState = some err) (hcl : c'.closed = true)
    (ha : c'.answers = c.answers) : c'.Failing resolved isClient done left err where
  numbered := hn
  isOpen := ho
  errorState := he
  closed := hcl
  created r stype hr := (h.created r stype hr).keeps hk (answersTo_congr (by rw [ha]))
  failed r hr hlt := (answersTo_congr (by rw [ha])).trans (h.failed r hr (by rwa [← ha]))
  waiting r hr := (h.waiting r (by rwa [← ha])).of_cell (by rw [ha])

/-- **A request that comes late** is turned down at once. -/
theorem newStreamHandle (h : c.Failing resolved isClient done left err) (stype : SType) :
    (c.newStreamHandle stype).Failing resolved isClient done (left ++ [stype]) err := by
  have hn := h.numbered.newStreamHandle stype
  rcases newStreamHandle_spec c stype with ⟨ho, -⟩ | ⟨ho, hc⟩
  · exact absurd (h.isOpen.symm.trans ho) (by simp)
  · rw [hc, h.errorState] at hn ⊢
    have hnext : done.length ≤ c.answers.next := by
      rw [h.numbered.answers]
      exact Nat.le_add_right _ _
    have hother : ∀ r, r ≠ c.answers.next → ((c.answers.alloc Oneshot.new).modify c.answers.next
        (Oneshot.send · (.error ((some err).getD (ErrorKind.unknown : Error))))).cell r =
        c.answers.cell r := fun r hr =>
      (Store.modify_cell_of_ne _ _ hr).trans (c.answers.alloc_cell_of_ne _ hr)
    refine ⟨hn, h.isOpen, h.errorState, h.closed, fun r t hr => ?_, fun r hr hlt => ?_,
      fun r hr => ?_⟩
    · have hlt := (List.getElem?_eq_some_iff.mp hr).choose
      exact (h.created r t hr).keeps (.of_eq rfl)
        (answersTo_congr (hother r (Nat.lt_of_lt_of_le hlt hnext).ne))
    · rcases Nat.lt_or_ge r c.answers.next with hold | hge
      · exact (answersTo_congr (hother r hold.ne)).trans (h.failed r hr hold)
      · obtain rfl : r = c.answers.next := Nat.le_antisymm (Nat.le_of_lt_succ hlt) hge
        have hnothing := (h.waiting _ (Nat.le_refl _)).nothing
        rw [answersTo, List.append_eq_nil_iff] at hnothing
        rw [answersTo, hnothing.1]
        simp only [Store.modify_cell_self, Store.alloc_cell_self]
        rfl
    · exact (h.waiting r (Nat.le_of_succ_le hr)).of_cell (hother r (Nat.ne_of_gt hr))

end Failing

/-- **The error is found again**, and nothing changes. -/
theorem Failing.handleClose {err : Error} (h : c.Failing resolved isClient done left err)
    {codes : Codes} (herr : codes.error.1 = some err) (hc : c.handleClose codes = some c') :
    c'.Failing resolved isClient done left err := by
  have hn := h.numbered.handleClose hc
  have hqueue := h.numbered.queue
  rw [h.isOpen, if_neg Bool.false_ne_true] at hqueue
  obtain ⟨c₁, hc₁, hc⟩ := Option.bind_eq_some_iff.mp hc
  obtain ⟨streams₁, rfl, hclose⟩ := close_spec hc
  have h₁ : Keeps c c₁ ∧ c₁.recvCreateStream.chan.isOpen = false ∧
      c₁.recvCreateStream.errorState = some err ∧ c₁.answers = c.answers := by
    obtain ⟨streams, chan, c₂, hl, -, ho, rfl, ⟨-, hdrop⟩ | ⟨-, rfl⟩⟩ :=
      checkAndHandleError_found herr hc₁
    · obtain ⟨streams', rfl, hl'⟩ := dropConnection_spec hdrop
      exact ⟨.of_laters (hl.trans hl'), ho, rfl, by rw [hqueue]; rfl⟩
    · exact ⟨.of_laters hl, ho, rfl, by rw [hqueue]; rfl⟩
  obtain ⟨hk, ho, he, ha⟩ := h₁
  exact h.keeps hn (hk.trans (.of_laters hclose)) ho he rfl ha

/-- **The context is dropped**, and the error stays at the queue. -/
theorem Failing.drop {err : Error} (h : c.Failing resolved isClient done left err)
    (hc : c.drop = some c') : c'.Failing resolved isClient done left err := by
  have hn := h.numbered.drop hc
  have hqueue := h.numbered.queue
  rw [h.isOpen, if_neg Bool.false_ne_true] at hqueue
  obtain ⟨streams, c₁, hl, hcase, rfl⟩ := drop_spec hc
  have h₁ : Keeps c c₁ ∧ c₁.recvCreateStream.chan.queue = [] ∧
      c₁.recvCreateStream.errorState = some err ∧ c₁.closed = true ∧ c₁.answers = c.answers := by
    rcases hcase with ⟨-, hdrop⟩ | ⟨-, rfl⟩
    · obtain ⟨streams', rfl, hl'⟩ := dropConnection_spec hdrop
      exact ⟨.of_laters (hl.trans hl'), hqueue, h.errorState, h.closed, rfl⟩
    · exact ⟨.of_laters hl, hqueue, h.errorState, h.closed, rfl⟩
  obtain ⟨hk, hq, he, hcl, ha⟩ := h₁
  exact h.keeps hn (hk.trans (.of_eq rfl)) rfl he hcl (by rw [hq]; exact ha)

/-- **The error is found**: the requests that wait are turned down. -/
theorem Serving.handleClose (h : c.Serving resolved isClient done left) {codes : Codes}
    {err : Error} (herr : codes.error.1 = some err) (hc : c.handleClose codes = some c') :
    c'.Failing resolved isClient done left err := by
  have hn := h.numbered.handleClose hc
  obtain ⟨c₁, hc₁, hc⟩ := Option.bind_eq_some_iff.mp hc
  obtain ⟨streams₁, rfl, hclose⟩ := close_spec hc
  have h₁ : Keeps c c₁ ∧ c₁.recvCreateStream.chan.isOpen = false ∧
      c₁.recvCreateStream.errorState = some err ∧
      c₁.answers = failAll err c.recvCreateStream.chan.queue c.answers := by
    obtain ⟨streams, chan, c₂, hl, -, ho, rfl, ⟨-, hdrop⟩ | ⟨-, rfl⟩⟩ :=
      checkAndHandleError_found herr hc₁
    · obtain ⟨streams', rfl, hl'⟩ := dropConnection_spec hdrop
      exact ⟨.of_laters (hl.trans hl'), ho, rfl, rfl⟩
    · exact ⟨.of_laters hl, ho, rfl, rfl⟩
  obtain ⟨hk, ho, he, ha⟩ := h₁
  have hqueue := h.numbered.queue
  rw [h.isOpen, if_pos rfl] at hqueue
  have hrefs : c.recvCreateStream.chan.queue.map Prod.snd =
      List.range' done.length left.length := by rw [hqueue, List.zipIdx_map_snd]
  have hcell : ∀ r, (failAll err c.recvCreateStream.chan.queue c.answers).cell r =
      if done.length ≤ r ∧ r < done.length + left.length then (c.answers.cell r).send (.error err)
      else c.answers.cell r := by
    intro r
    rw [failAll_cell (hrefs ▸ List.nodup_range'), hrefs]
    simp only [List.mem_range'_1]
  have hnext : c₁.answers.next = done.length + left.length := by
    rw [ha, Numbered.failAll_next, h.numbered.answers]
  refine ⟨hn, ho, he, rfl, fun r t hr => ?_, fun r hr hlt => ?_, fun r hr => ?_⟩
  · have hlt := (List.getElem?_eq_some_iff.mp hr).choose
    refine (h.created r t hr).keeps (hk.trans (.of_laters hclose)) (answersTo_congr ?_)
    change c₁.answers.cell r = _
    rw [ha, hcell, if_neg fun hmem => Nat.not_lt.mpr hmem.1 hlt]
  · refine (h.waiting r hr).answersTo_send _ ?_
    change c₁.answers.cell r = _
    rw [ha, hcell, if_pos ⟨hr, hnext ▸ hlt⟩]
  · have hge : done.length + left.length ≤ r := hnext ▸ hr
    refine (h.waiting r (Nat.le_trans (Nat.le_add_right _ _) hge)).of_cell ?_
    change c₁.answers.cell r = _
    rw [ha, hcell, if_neg fun hmem => Nat.not_lt.mpr hge hmem.2]

/-! ### Polling and callbacks -/

/-- **Polling a request** moves the answer to the application, if there is one. -/
theorem pollRequest_spec {c : Context} {r : RequestRef}
    (hp : (c.answers.cell r).value = none → (c.answers.cell r).pending = true) :
    ∃ o answers, c.pollRequest r = (o, { c with answers }) ∧ answers.next = c.answers.next ∧
      ∀ resolved r',
        { c with answers }.answersTo (resolved ++ (o.map fun a => (r, a)).toList) r' =
          c.answersTo resolved r' ∧
        (c.Unanswered resolved r' →
          { c with answers }.Unanswered (resolved ++ (o.map fun a => (r, a)).toList) r') := by
  have hother : ∀ o r', r' ≠ r → (c.answers.modify r fun _ => o).cell r' = c.answers.cell r' :=
    fun o r' hne => c.answers.modify_cell_of_ne _ hne
  have hself : ∀ o, (c.answers.modify r fun _ => o).cell r = o :=
    fun o => c.answers.modify_cell_self _ _
  cases hv : (c.answers.cell r).value with
  | some a =>
    obtain ⟨o, hpoll, ho⟩ : ∃ o, (c.answers.cell r).poll = (.ok (.ready a), o) ∧ o.value = none :=
      ⟨_, by rw [Oneshot.poll, hv], rfl⟩
    refine ⟨some a, c.answers.modify r fun _ => o, by rw [pollRequest, hpoll], rfl,
      fun resolved r' => ?_⟩
    rcases eq_or_ne r' r with rfl | hne
    · refine ⟨?_, fun h => ?_⟩
      · simp [answersTo, ho, hv]
      · have hnothing := h.nothing
        simp [answersTo, hv] at hnothing
    · have hans : (resolved ++ [(r, a)]).filter (·.1 == r') = resolved.filter (·.1 == r') := by
        simp [hne.symm]
      refine ⟨?_, fun h => ⟨?_, ?_, ?_⟩⟩
      · simp only [answersTo, hother o r' hne, Option.map_some, Option.toList_some, hans]
      · rw [← h.nothing]
        simp only [answersTo, hother o r' hne, Option.map_some, Option.toList_some, hans]
      · rw [hother o r' hne, h.pending]
      · rw [hother o r' hne, h.receiver]
  | none =>
    obtain ⟨o, hpoll, ho, hpend, hrecv⟩ : ∃ o, (c.answers.cell r).poll = (.ok .notReady, o) ∧
        o.value = none ∧ o.pending = (c.answers.cell r).pending ∧
        o.receiver = (c.answers.cell r).receiver :=
      ⟨⟨none, true, (c.answers.cell r).receiver, true⟩,
        by simp only [Oneshot.poll, hv, hp hv, if_true], rfl, (hp hv).symm, rfl⟩
    refine ⟨none, c.answers.modify r fun _ => o, by rw [pollRequest, hpoll], rfl,
      fun resolved r' => ?_⟩
    rcases eq_or_ne r' r with rfl | hne
    · have hans : { c with answers := c.answers.modify r' fun _ => o }.answersTo
          (resolved ++ []) r' = c.answersTo resolved r' := by
        simp [answersTo, ho, hv]
      exact ⟨hans, fun h => ⟨hans.trans h.nothing, by rw [hself, hpend, h.pending],
        by rw [hself, hrecv, h.receiver]⟩⟩
    · have hans : { c with answers := c.answers.modify r fun _ => o }.answersTo
          (resolved ++ []) r' = c.answersTo resolved r' := by
        simp [answersTo, hother o r' hne]
      exact ⟨hans, fun h => ⟨hans.trans h.nothing, by rw [hother o r' hne, h.pending],
        by rw [hother o r' hne, h.receiver]⟩⟩

/-- **A callback**, while somebody waits for the `Connection` or has it: the connection is
ready, or a context takes the callback, or a stream is made for it and announced. -/
theorem handleCallback_cases {c c' : Context} {cb : Context.Callback}
    (hr : c.created.receiver = true) (hc : c.handleCallback cb = some c') :
    (cb = .almostReady ∧ c.waitForReadyState = true ∧ c' = { c with
      waitForReadyState := false
      created := c.created.send (.ok ())
      calls := c.calls ++ [Call.getLocalCnxid] }) ∨
    ((cb = .almostReady → c.waitForReadyState = false) ∧
      (∀ id scb, cb = .stream id scb → id ≠ 0 → c.hasContext id = true) ∧
      ∃ streams, c' = { c with streams } ∧ Laters c.streams streams) ∨
    ∃ id scb streams, cb = .stream id scb ∧ id ≠ 0 ∧ c.hasContext id = false ∧
      c' = { c.insertStream id false with
        streams
        sendMsg := if c.sendMsg.isOpen then c.sendMsg.push (.newStream c.streams.length)
          else c.sendMsg } ∧
      Laters (c.insertStream id false).streams streams := by
  cases cb with
  | almostReady =>
    rw [handleCallback] at hc
    split at hc
    · obtain ⟨hw, c₁, rfl, ⟨-, rfl⟩ | ⟨hno, -⟩⟩ := processWaitForReadyState_spec hc
      · exact Or.inl ⟨rfl, hw, rfl⟩
      · exact absurd (hr.symm.trans hno) (by simp)
    · rename_i hw
      exact Or.inr (Or.inl ⟨fun _ => by simpa using hw, by simp, c.streams,
        (Option.some.inj hc).symm, .refl _⟩)
  | stream id scb =>
    rw [handleCallback] at hc
    split at hc
    · rename_i hid
      rcases handleStreamCallback_spec hc with ⟨hhas, streams, rfl, hl⟩ | ⟨hhas, streams, rfl, hl⟩
      · refine Or.inr (Or.inl ⟨by simp, ?_, streams, rfl, hl⟩)
        rintro id' scb' heq -
        obtain ⟨rfl, rfl⟩ := Callback.stream.inj heq
        exact hhas
      · exact Or.inr (Or.inr ⟨id, scb, streams, rfl, hid, hhas, rfl, hl⟩)
    · rename_i hid
      refine Or.inr (Or.inl ⟨by simp, ?_, c.streams, (Option.some.inj hc).symm, .refl _⟩)
      rintro id' scb' heq hne
      obtain ⟨rfl, rfl⟩ := Callback.stream.inj heq
      exact absurd hne hid

end Context

namespace Ends

open Context

variable {p p' : Ends} {e : Event} {isClient : Bool} {done left : List SType} {err : Error}

/-- **The application waits for what it asked for**: it keeps its futures and the
`Connection`, and polls a future until it is resolved. -/
def waits (p : Ends) : Event → Bool
  | .pollRequest r => decide (r < p.ctx.answers.next) && p.resolved.all (·.1 != r)
  | .pollCreated => p.ctx.isClient && p.opened.isEmpty
  | .dropRequest _ | .dropCreated | .dropConnection | .closeImmediately => false
  | _ => true

/-- **What an application that waits does.** -/
theorem stepApplication_cases (hw : p.waits e = true) (h : p.stepApplication e = some p') :
    (∃ stype, e = .newStream stype ∧ p.requests e = [stype] ∧
      p' = { p with ctx := p.ctx.newStreamHandle stype }) ∨
    p.requests e = [] ∧
      ((∃ r o ctx, e = .pollRequest r ∧ p.ctx.pollRequest r = (o, ctx) ∧
          p' = { p with ctx, resolved := p.resolved ++ (o.map fun a => (r, a)).toList }) ∨
        (∃ a ctx, e = .pollCreated ∧ p.ctx.pollCreated = (a, ctx) ∧
          p' = { p with
            ctx, opened := p.opened ++ a.toList
            connection := match a with
              | some (.ok ()) => true
              | _ => p.connection }) ∨
        (∃ o ctx, e = .pollConnection ∧ p.connection = true ∧ p.ctx.pollConnection = (o, ctx) ∧
          p' = { p with ctx, outcomes := p.outcomes ++ o.toList }) ∨
        ∃ streams recv handles, Laters p.ctx.streams streams ∧
          recv.chan.queue = p.ctx.recvCreateStream.chan.queue ∧
          recv.chan.isOpen = p.ctx.recvCreateStream.chan.isOpen ∧
          recv.errorState = p.ctx.recvCreateStream.errorState ∧
          p' = { p with
            ctx := { p.ctx with streams, recvCreateStream := recv }, handles }) := by
  have hvoid : some p = some p' → ∃ streams recv handles, Laters p.ctx.streams streams ∧
      recv.chan.queue = p.ctx.recvCreateStream.chan.queue ∧
      recv.chan.isOpen = p.ctx.recvCreateStream.chan.isOpen ∧
      recv.errorState = p.ctx.recvCreateStream.errorState ∧
      p' = { p with ctx := { p.ctx with streams, recvCreateStream := recv }, handles } :=
        fun h => by
    obtain rfl := Option.some.inj h
    exact ⟨_, _, _, .refl _, rfl, rfl, rfl, rfl⟩
  cases e with
  | newStream stype =>
    simp only [stepApplication] at h
    simp only [requests]
    split at h
    · rename_i hhas
      exact Or.inl ⟨stype, rfl, if_pos hhas, (Option.some.inj h).symm⟩
    · rename_i hhas
      exact Or.inr ⟨if_neg hhas, Or.inr (Or.inr (Or.inr (hvoid h)))⟩
  | pollRequest r =>
    exact Or.inr ⟨rfl, Or.inl ⟨r, _, _, rfl, rfl, (Option.some.inj h).symm⟩⟩
  | pollCreated =>
    exact Or.inr ⟨rfl, Or.inr (Or.inl ⟨_, _, rfl, rfl, (Option.some.inj h).symm⟩)⟩
  | pollConnection =>
    simp only [stepApplication] at h
    split at h
    · exact Or.inr ⟨rfl, Or.inr (Or.inr (Or.inl
        ⟨_, _, rfl, ‹_›, rfl, (Option.some.inj h).symm⟩))⟩
    · exact Or.inr ⟨rfl, Or.inr (Or.inr (Or.inr (hvoid h)))⟩
  | cloneHandle =>
    simp only [stepApplication] at h
    refine Or.inr ⟨rfl, Or.inr (Or.inr (Or.inr ?_))⟩
    split at h
    · exact ⟨_, { p.ctx.recvCreateStream with chan := p.ctx.recvCreateStream.chan.cloneSender },
        _, .refl _, rfl, rfl, rfl, (Option.some.inj h).symm⟩
    · exact hvoid h
  | dropHandle =>
    simp only [stepApplication] at h
    refine Or.inr ⟨rfl, Or.inr (Or.inr (Or.inr ?_))⟩
    split at h
    · exact ⟨_, p.ctx.recvCreateStream.dropSender, _, .refl _, rfl, rfl, rfl,
        (Option.some.inj h).symm⟩
    · exact hvoid h
  | stream k e =>
    simp only [stepApplication] at h
    refine Or.inr ⟨rfl, Or.inr (Or.inr (Or.inr ?_))⟩
    split at h
    · obtain ⟨c, hc, h⟩ := Option.bind_eq_some_iff.mp h
      obtain ⟨streams, rfl, hl⟩ := atStream_spec hc
      exact ⟨streams, p.ctx.recvCreateStream, _, hl, rfl, rfl, rfl, (Option.some.inj h).symm⟩
    · exact hvoid h
  | dropRequest => simp [waits] at hw
  | dropCreated => simp [waits] at hw
  | dropConnection => simp [waits] at hw
  | closeImmediately => simp [waits] at hw
  | _ => exact Or.inr ⟨rfl, Or.inr (Or.inr (Or.inr (hvoid h)))⟩

/-! ### The requests -/

/-- **The requests are served step by step.** A poll works the queue off. -/
theorem step_serving (h : p.ctx.Serving p.resolved isClient done left) (ha : p.alive = true)
    (hr : p.ctx.created.receiver = true) (hw : p.waits e = true) (hno : e.endsContext = false)
    (hstep : p.step e = some p') :
    p'.ctx.Serving p'.resolved isClient (if e.isPoll then done ++ left else done)
      (if e.isPoll then [] else left ++ p.requests e) := by
  rw [step] at hstep
  cases hat : atContext e with
  | false =>
    rw [if_neg (by simp [hat])] at hstep
    have hpoll : e.isPoll = false := by
      cases e <;> first | rfl | simp [atContext] at hat
    rw [hpoll, if_neg Bool.false_ne_true, if_neg Bool.false_ne_true]
    have hn := stepApplication_numbered h.numbered hstep
    rcases stepApplication_cases hw hstep with ⟨stype, rfl, hreq, rfl⟩ | ⟨hreq, hcase⟩
    · rw [hreq]
      exact h.newStreamHandle stype
    · rw [hreq, List.append_nil] at hn ⊢
      rcases hcase with ⟨r, o, ctx, rfl, hpoll, rfl⟩ | ⟨a, ctx, rfl, hpoll, rfl⟩ |
        ⟨o, ctx, rfl, hconn, hpoll, rfl⟩ | ⟨streams, recv, handles, hl, hq, ho, he, rfl⟩
      · -- a request that was not resolved has an answer, or is waiting
        have hp : (p.ctx.answers.cell r).value = none → (p.ctx.answers.cell r).pending = true := by
          intro hv
          rcases Nat.lt_or_ge r done.length with hlt | hge
          · obtain ⟨k, en, hans, -⟩ := h.created r _ (List.getElem?_eq_getElem hlt)
            have hun : p.resolved.filter (·.1 == r) = [] := by
              simp only [waits, Bool.and_eq_true, List.all_eq_true] at hw
              exact List.filter_eq_nil_iff.mpr fun x hx => by simpa using hw.2 x hx
            simp [answersTo, hv, hun] at hans
          · exact (h.waiting r hge).pending
        obtain ⟨o', answers, hpoll', hnext, hans⟩ := pollRequest_spec hp
        obtain ⟨rfl, rfl⟩ := Prod.mk.inj (hpoll'.symm.trans hpoll)
        exact ⟨hn, h.isOpen, h.closed, h.closeRecv,
          fun r' t hr' => (h.created r' t hr').keeps (.of_eq rfl) (hans _ r').1,
          fun r' hr' => (hans _ r').2 (h.waiting r' hr')⟩
      · obtain rfl := (congrArg Prod.snd hpoll).symm
        obtain ⟨created, hframe, -⟩ := pollCreated_frame p.ctx
        rw [hframe] at hn ⊢
        exact h.keeps hn (.of_eq rfl) rfl rfl rfl rfl
      · obtain rfl := (congrArg Prod.snd hpoll).symm
        obtain ⟨sendMsg, hframe⟩ := pollConnection_frame p.ctx
        rw [hframe] at hn ⊢
        exact h.keeps hn (.of_eq rfl) rfl rfl rfl rfl
      · exact h.keeps hn (.of_laters hl) ho rfl rfl rfl
  | true =>
    rw [if_pos hat, if_pos ha] at hstep
    cases e with
    | callback cb =>
      obtain ⟨c, hc, hstep⟩ := Option.bind_eq_some_iff.mp hstep
      obtain rfl := Option.some.inj hstep
      have hn := h.numbered.handleCallback hc
      change c.Serving p.resolved isClient done (left ++ [])
      rw [List.append_nil]
      rcases handleCallback_cases hr hc with ⟨-, -, rfl⟩ | ⟨-, -, streams, rfl, hl⟩ |
        ⟨id, scb, streams, -, -, -, rfl, hl⟩
      · exact h.keeps hn (.of_eq rfl) rfl rfl rfl rfl
      · exact h.keeps hn (.of_laters hl) rfl rfl rfl rfl
      · exact h.keeps hn ((insertStream_keeps _ _ _).trans (.of_laters hl)) rfl rfl rfl rfl
    | poll =>
      obtain ⟨⟨r, c⟩, hc, hstep⟩ := Option.bind_eq_some_iff.mp hstep
      obtain rfl := Option.some.inj hstep
      exact (h.poll hc).1
    | close codes => simp [Event.endsContext] at hno
    | drop => simp [Event.endsContext] at hno
    | _ => simp [atContext] at hat

/-- **The requests are turned down step by step**, also once the context is dropped. -/
theorem step_failing (h : p.ctx.Failing p.resolved isClient done left err)
    (hr : p.ctx.created.receiver = true) (hw : p.waits e = true)
    (hconst : ∀ codes, e = .close codes → codes.error.1 = some err)
    (hstep : p.step e = some p') :
    p'.ctx.Failing p'.resolved isClient done (left ++ p.requests e) err := by
  rw [step] at hstep
  cases hat : atContext e with
  | false =>
    rw [if_neg (by simp [hat])] at hstep
    have hn := stepApplication_numbered h.numbered hstep
    rcases stepApplication_cases hw hstep with ⟨stype, rfl, hreq, rfl⟩ | ⟨hreq, hcase⟩
    · rw [hreq]
      exact h.newStreamHandle stype
    · rw [hreq, List.append_nil] at hn ⊢
      rcases hcase with ⟨r, o, ctx, rfl, hpoll, rfl⟩ | ⟨a, ctx, rfl, hpoll, rfl⟩ |
        ⟨o, ctx, rfl, hconn, hpoll, rfl⟩ | ⟨streams, recv, handles, hl, hq, ho, he, rfl⟩
      · -- a request that was not resolved has an answer
        simp only [waits, Bool.and_eq_true, decide_eq_true_eq, List.all_eq_true] at hw
        have hun : p.resolved.filter (·.1 == r) = [] :=
          List.filter_eq_nil_iff.mpr fun x hx => by simpa using hw.2 x hx
        have hp : (p.ctx.answers.cell r).value = none → (p.ctx.answers.cell r).pending = true := by
          intro hv
          rcases Nat.lt_or_ge r done.length with hlt | hge
          · obtain ⟨k, en, hans, -⟩ := h.created r _ (List.getElem?_eq_getElem hlt)
            simp [answersTo, hv, hun] at hans
          · have hans := h.failed r hge hw.1
            simp [answersTo, hv, hun] at hans
        obtain ⟨o', answers, hpoll', hnext, hans⟩ := pollRequest_spec hp
        obtain ⟨rfl, rfl⟩ := Prod.mk.inj (hpoll'.symm.trans hpoll)
        exact ⟨hn, h.isOpen, h.errorState, h.closed,
          fun r' t hr' => (h.created r' t hr').keeps (.of_eq rfl) (hans _ r').1,
          fun r' hr' hlt => (hans _ r').1.trans (h.failed r' hr' (hnext ▸ hlt)),
          fun r' hr' => (hans _ r').2 (h.waiting r' (hnext ▸ hr'))⟩
      · obtain rfl := (congrArg Prod.snd hpoll).symm
        obtain ⟨created, hframe, -⟩ := pollCreated_frame p.ctx
        rw [hframe] at hn ⊢
        exact h.keeps hn (.of_eq rfl) h.isOpen h.errorState h.closed rfl
      · obtain rfl := (congrArg Prod.snd hpoll).symm
        obtain ⟨sendMsg, hframe⟩ := pollConnection_frame p.ctx
        rw [hframe] at hn ⊢
        exact h.keeps hn (.of_eq rfl) h.isOpen h.errorState h.closed rfl
      · exact h.keeps hn (.of_laters hl) (ho.trans h.isOpen) (he.trans h.errorState) h.closed rfl
  | true =>
    rw [requests_eq_nil hat, List.append_nil]
    rw [if_pos hat] at hstep
    split at hstep
    · cases e with
      | callback cb =>
        obtain ⟨c, hc, hstep⟩ := Option.bind_eq_some_iff.mp hstep
        obtain rfl := Option.some.inj hstep
        have hn := h.numbered.handleCallback hc
        rcases handleCallback_cases hr hc with ⟨-, -, rfl⟩ | ⟨-, -, streams, rfl, hl⟩ |
          ⟨id, scb, streams, -, -, -, rfl, hl⟩
        · exact h.keeps hn (.of_eq rfl) h.isOpen h.errorState h.closed rfl
        · exact h.keeps hn (.of_laters hl) h.isOpen h.errorState h.closed rfl
        · exact h.keeps hn ((insertStream_keeps _ _ _).trans (.of_laters hl)) h.isOpen
            h.errorState h.closed rfl
      | close codes =>
        obtain ⟨c, hc, hstep⟩ := Option.bind_eq_some_iff.mp hstep
        obtain rfl := Option.some.inj hstep
        exact h.handleClose (hconst codes rfl) hc
      | poll =>
        obtain ⟨⟨r, c⟩, hc, hstep⟩ := Option.bind_eq_some_iff.mp hstep
        obtain rfl := Option.some.inj hstep
        rcases poll_spec hc with ⟨-, rfl⟩ | ⟨hopen, -⟩
        · exact h
        · exact absurd (h.closed.symm.trans hopen) (by simp)
      | drop =>
        obtain ⟨c, hc, hstep⟩ := Option.bind_eq_some_iff.mp hstep
        obtain rfl := Option.some.inj hstep
        exact h.drop hc
      | _ => simp [atContext] at hat
    · obtain rfl := Option.some.inj hstep
      exact h

end Ends

end Connections

end PicoquicRs
