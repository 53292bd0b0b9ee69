import PicoquicRs.Connections.Requests
import PicoquicRs.Streams.Linked

/-!
# A connection does not panic

The functions of a connection context panic for one of three reasons: picoquic provides no
buffer where it asks a stream for data, a connection that waits for nothing becomes ready,
or the map has a context for an id that is about to be given away. The first is up to
picoquic, the second is excluded by the only caller, and the third by the numbers of the
requests (`PicoquicRs.Connections.Context.Numbered`) as long as there are enough of them
(`PicoquicRs.Connections.Ends.step_total`).
-/

namespace PicoquicRs

namespace Connections

open Futures

/-- picoquic provides no buffer to a stream. -/
def Event.isNull : Event → Prop
  | .callback (.stream _ cb) => cb.isNull
  | _ => False

namespace Entry

variable {en en' : Entry} {e : Streams.Event}

theorem Later.linked (hl : en.Later en') (h : en.pair.Linked) : en'.pair.Linked := by
  obtain ⟨es, -, hrun⟩ := hl.run
  exact Trace.run_keeps (P := Streams.Pair.Linked) (fun _ _ _ _ h hstep => h.of_step hstep) h hrun

theorem take_total (h : en.pair.Linked) (he : ¬ e.isNull) : ∃ en', en.take e = some en' := by
  obtain ⟨p, hp, -⟩ := h.step he
  exact ⟨_, by rw [take, hp]; rfl⟩

theorem takeInMap_total (sel : Entry → Bool) (h : en.pair.Linked) (he : ¬ e.isNull) :
    ∃ en', en.takeInMap sel e = some en' := by
  rw [takeInMap]
  split
  · exact take_total h he
  · exact ⟨en, rfl⟩

end Entry

namespace Context

variable {c c' : Context} {e : Streams.Event}

/-- **Every stream can take events.** -/
def AllLinked (c : Context) : Prop := ∀ en ∈ c.streams, en.pair.Linked

namespace AllLinked

theorem laters {streams : List Entry} (h : c.AllLinked) (hl : Laters c.streams streams) :
    ∀ en ∈ streams, en.pair.Linked :=
  hl.forall_mem (fun _ _ hl h => hl.linked h) h

theorem same (h : c.AllLinked) (hs : Same c c') : c'.AllLinked := h.laters hs.streams

theorem insertStream (h : c.AllLinked) (id : Id) (requested : Bool) :
    (c.insertStream id requested).AllLinked := by
  intro en hen
  rcases List.mem_append.mp hen with hen | hen
  · exact h en hen
  · obtain rfl := List.mem_singleton.mp hen
    exact Streams.Pair.new_linked _ _

theorem createStream (h : c.AllLinked) (stype : SType) : (c.createStream stype).AllLinked :=
  insertStream (c := { c with
    recvCreateStream := c.recvCreateStream.poll.2, nextStreamId := c.nextStreamId + 1 }) h _ _

theorem checkCreateStreamRequests (h : c.AllLinked) (hc : c.checkCreateStreamRequests = some c') :
    c'.AllLinked :=
  checkCreateStreamRequests_rule (P := AllLinked) (Q := AllLinked)
    (fun _ stype _ _ _ h _ _ hl => (h.createStream stype).laters hl) (fun _ h _ => h) h hc

/-! ### The functions -/

/-- What is done after something that does not panic. -/
theorem bind_total {α β : Type} {m : Option α} {f : α → Option β} (hm : ∃ a, m = some a)
    (hf : ∀ a, m = some a → ∃ b, f a = some b) : ∃ b, m >>= f = some b := by
  obtain ⟨a, ha⟩ := hm
  obtain ⟨b, hb⟩ := hf a ha
  exact ⟨b, by rw [ha]; exact hb⟩

theorem eachContext (h : c.AllLinked) (sel : Entry → Bool) (he : ¬ e.isNull) :
    ∃ c', c.eachContext sel e = some c' := by
  have htotal := Each.exists_mapM fun en hen => Entry.takeInMap_total sel (h en hen) he
  exact bind_total htotal fun streams _ => ⟨_, rfl⟩

theorem atStream (h : c.AllLinked) (k : StreamRef) (he : ¬ e.isNull) :
    ∃ c', c.atStream k e = some c' := by
  rw [Context.atStream]
  split
  · rename_i en hen
    exact bind_total (Entry.take_total (h en (List.mem_of_getElem? hen)) he) fun en' _ => ⟨_, rfl⟩
  · exact ⟨c, rfl⟩

theorem dropStream (h : c.AllLinked) (k : StreamRef) : ∃ c', c.atStream k .dropStream = some c' :=
  h.atStream k (by simp [Streams.Event.isNull])

theorem dropConnection (h : c.AllLinked) : ∃ c', c.dropConnection = some c' := by
  have htotal : ∀ (ks : List StreamRef) (c : Context), c.AllLinked →
      ∃ c', ks.foldlM (Context.atStream · · .dropStream) c = some c' := by
    intro ks
    induction ks with
    | nil => exact fun c _ => ⟨c, rfl⟩
    | cons k ks ih =>
      intro c h
      rw [List.foldlM_cons]
      exact bind_total (h.dropStream k) fun c₁ hc₁ => ih c₁ (h.same (atStream_same hc₁))
  exact bind_total (htotal _ c h) fun c₁ _ => ⟨_, rfl⟩

theorem answer (h : c.AllLinked) (r : RequestRef) (a : Except Error StreamRef) :
    ∃ c', c.answer r a = some c' := by
  cases a with
  | error err => exact ⟨_, rfl⟩
  | ok k =>
    simp only [Context.answer]
    split
    · exact ⟨_, rfl⟩
    · exact dropStream (c := { c with answers := c.answers.modify r (Oneshot.send · (.ok k)) }) h k

theorem handleStreamCallback (h : c.AllLinked) (id : Id) {cb : Streams.Callback}
    (hcb : ¬ cb.isNull) : ∃ c', c.handleStreamCallback id cb = some c' := by
  rw [Context.handleStreamCallback]
  split
  · exact h.eachContext _ hcb
  · refine bind_total ((h.insertStream id false).atStream _ (e := .callback cb) hcb)
      fun c₁ hc₁ => ?_
    split
    · exact ⟨_, rfl⟩
    · exact ((h.insertStream id false).same (atStream_same hc₁)).dropStream _

theorem handleCallback (h : c.AllLinked) {cb : Callback}
    (hcb : ¬ (Event.callback cb).isNull) : ∃ c', c.handleCallback cb = some c' := by
  cases cb with
  | almostReady =>
    rw [Context.handleCallback]
    split
    · rename_i hw
      rw [Context.processWaitForReadyState, if_pos hw]
      simp only
      split
      · exact ⟨_, rfl⟩
      · exact dropConnection (c := { c with
          waitForReadyState := false, created := _, calls := _ }) h
    · exact ⟨c, rfl⟩
  | stream id scb =>
    rw [Context.handleCallback]
    split
    · exact h.handleStreamCallback id hcb
    · exact ⟨c, rfl⟩

theorem close (h : c.AllLinked) : ∃ c', c.close = some c' := by
  refine bind_total (eachContext (c := { c with calls := c.calls ++ [Call.close], closed := true })
    (e := .connectionClose) h _ (by simp [Streams.Event.isNull])) fun c₁ _ => ?_
  split <;> exact ⟨_, rfl⟩

theorem failLoop (err : Error) (fuel : ℕ) (c : Context) : ∃ c', failLoop err fuel c = some c' := by
  induction fuel generalizing c with
  | zero => exact ⟨c, rfl⟩
  | succ fuel ih =>
    rw [Context.failLoop]
    split
    · exact ih _
    · exact ⟨_, rfl⟩

theorem checkAndHandleError (h : c.AllLinked) (codes : Codes) :
    ∃ c', c.checkAndHandleError codes = some c' := by
  simp only [Context.checkAndHandleError]
  split
  · rename_i err herr
    have h₀ : { c with calls := c.calls ++ codes.error.2 }.AllLinked := h
    refine bind_total (h₀.eachContext _ (by simp [Streams.Event.isNull])) fun c₁ hc₁ => ?_
    have h₁ := h₀.same (eachContext_same hc₁)
    refine bind_total (failLoop err _ _) fun c₂ hc₂ => ?_
    obtain ⟨chan, rfl, -, -⟩ := failLoop_spec (Nat.lt_succ_self _) hc₂
    split
    · exact dropConnection h₁
    · split <;> exact ⟨_, rfl⟩
  · exact ⟨_, rfl⟩

theorem handleClose (h : c.AllLinked) (codes : Codes) : ∃ c', c.handleClose codes = some c' :=
  bind_total (h.checkAndHandleError codes) fun _ hc₁ =>
    (h.same (checkAndHandleError_same hc₁)).close

theorem drop (h : c.AllLinked) : ∃ c', c.drop = some c' := by
  have h₀ : { c with calls := c.calls ++ [Call.clearCallback] }.AllLinked := h
  refine bind_total (h₀.eachContext _ (by simp [Streams.Event.isNull])) fun c₁ hc₁ => ?_
  have h₁ := h₀.same (eachContext_same hc₁)
  refine bind_total ?_ fun c₂ _ => ⟨_, rfl⟩
  rw [Context.dropWaitForReadyState]
  split
  · exact dropConnection (c := { c₁ with waitForReadyState := false, created := _ }) h₁
  · exact ⟨_, rfl⟩

end AllLinked

/-! ### The create requests -/

variable {isClient : Bool} {done left : List SType}

/-- **The map has no context for the next id**, as every id of one's own was given away for
an earlier request. -/
theorem Numbered.hasContext (h : c.Numbered isClient done left) (hown : c.Own)
    (hlt : done.length < 2 ^ 62) (stype : SType) :
    c.hasContext (generateStreamId c.nextStreamId c.isClient stype) = false := by
  rw [Context.hasContext, List.any_eq_false]
  intro en hen hhas
  rw [Bool.and_eq_true, beq_iff_eq] at hhas
  have hmem := hown en hen (by rw [hhas.2, isClientInitiated_generateStreamId])
  rw [h.created, idsOf, hhas.2, h.nextStreamId, h.role] at hmem
  obtain ⟨i, hi, hid⟩ := List.mem_mapIdx.mp hmem
  have htoNat : ∀ n, n < 2 ^ 62 → (UInt64.ofNat n).toNat = n := fun n hn =>
    UInt64.toNat_ofNat_of_lt' (Nat.lt_trans hn (by decide))
  have hlt' : i < 2 ^ 62 := Nat.lt_trans hi hlt
  have hn := generateStreamId_injective (by rwa [htoNat i hlt']) (by rwa [htoNat _ hlt]) hid
  have heq := congrArg UInt64.toNat hn
  rw [htoNat i hlt', htoNat _ hlt] at heq
  exact absurd heq (Nat.ne_of_lt hi)

/-- **All requests that wait get their stream**, as long as there are ids for them. -/
theorem Numbered.checkCreateStreamRequests_total (h : c.Numbered isClient done left) (hown : c.Own)
    (hl : c.AllLinked) (hfew : (done ++ left).length ≤ 2 ^ 62) :
    ∃ c', c.checkCreateStreamRequests = some c' := by
  suffices hloop : ∀ (fuel : ℕ) (c : Context) (done left : List SType),
      c.Numbered isClient done left → c.Own → c.AllLinked → (done ++ left).length ≤ 2 ^ 62 →
      ∃ c', createLoop fuel c = some c' from hloop _ c done left h hown hl hfew
  intro fuel
  induction fuel with
  | zero => exact fun c _ _ _ _ _ _ => ⟨c, rfl⟩
  | succ fuel ih =>
    intro c done left h hown hl hfew
    cases hq : c.recvCreateStream.chan.queue with
    | nil => exact ⟨_, createLoop_nil hq⟩
    | cons request q =>
      obtain ⟨stype, r⟩ := request
      obtain ⟨left', rfl, -, -⟩ := h.createStream hq (.refl _) c.answers rfl
      rw [List.length_append, List.length_cons] at hfew
      rw [createLoop_cons hq, h.hasContext hown (by omega) stype, if_neg Bool.false_ne_true]
      refine AllLinked.bind_total ((hl.createStream stype).answer _ _) fun c₁ hc₁ => ?_
      obtain ⟨streams, heq, hlater⟩ := answer_spec hc₁
      have hs : Same (c.createStream stype) c₁ := by
        rw [heq]
        exact ⟨hlater, rfl, rfl⟩
      obtain rfl := heq
      obtain ⟨left'', hleft, -, h'⟩ := h.createStream hq hlater
        (c.answers.modify r (Oneshot.send · (.ok c.streams.length))) rfl
      obtain rfl := (List.cons.inj hleft).2
      refine ih _ _ _ h' ((hown.createStream stype).same hs) ((hl.createStream stype).same hs) ?_
      rw [List.length_append, List.length_append, List.length_singleton]
      omega

theorem Numbered.poll_total (h : c.Numbered isClient done left) (hown : c.Own)
    (hl : c.AllLinked) (hfew : (done ++ left).length ≤ 2 ^ 62) :
    ∃ r, c.poll = some r := by
  rw [Context.poll]
  split
  · exact ⟨_, rfl⟩
  · refine AllLinked.bind_total (hl.eachContext _ (by simp [Streams.Event.isNull])) fun c₁ hc₁ => ?_
    have hs := eachContext_same hc₁
    have hreq : SameRequests c c₁ := by
      obtain ⟨streams, rfl, -⟩ := eachContext_spec hc₁
      exact ⟨rfl, rfl, rfl⟩
    refine AllLinked.bind_total ((h.same hs hreq).checkCreateStreamRequests_total (hown.same hs)
      (hl.same hs) hfew) fun c₂ hc₂ => ?_
    have h₂ := (hl.same hs).checkCreateStreamRequests hc₂
    split
    · exact AllLinked.bind_total (AllLinked.close (c := { c₂ with closeRecv := _ }) h₂)
        fun c₃ _ => ⟨_, rfl⟩
    · exact ⟨_, rfl⟩

end Context

/-! ### The steps -/

namespace Ends

open Context AllLinked

variable {p p' : Ends} {e : Event} {isClient : Bool} {done left : List SType}

theorem step_allLinked (h : p.ctx.AllLinked) (hstep : p.step e = some p') : p'.ctx.AllLinked :=
  step_rule (P := AllLinked) (fun _ _ h hs => h.same hs) h
    (fun id _ _ _ _ => h.insertStream id false)
    (fun _ _ _ h₁ _ _ hc => h₁.checkCreateStreamRequests hc) hstep

theorem stepApplication_total (h : p.ctx.AllLinked) (e : Event) :
    ∃ p', p.stepApplication e = some p' := by
  cases e with
  | dropRequest r =>
    refine bind_total ?_ fun c _ => ⟨_, rfl⟩
    simp only [dropRequest]
    split
    · exact AllLinked.dropStream (c := { p.ctx with
        answers := p.ctx.answers.modify r Oneshot.dropReceiver }) h _
    · exact ⟨_, rfl⟩
  | dropCreated =>
    refine bind_total ?_ fun c _ => ⟨_, rfl⟩
    simp only [Context.dropCreated]
    split
    · exact AllLinked.dropConnection (c := { p.ctx with
        created := p.ctx.created.dropReceiver }) h
    · exact ⟨_, rfl⟩
  | dropConnection =>
    simp only [stepApplication]
    split
    · exact bind_total h.dropConnection fun c _ => ⟨_, rfl⟩
    · exact ⟨_, rfl⟩
  | closeImmediately =>
    simp only [stepApplication]
    split
    · exact bind_total (AllLinked.dropConnection (c := { p.ctx with
        closeRecv := p.ctx.closeRecv.send () }) h) fun c _ => ⟨_, rfl⟩
    · exact ⟨_, rfl⟩
  | stream k e =>
    simp only [stepApplication]
    split
    · rename_i hat
      refine bind_total (h.atStream k ?_) fun c _ => ⟨_, rfl⟩
      cases e <;> simp_all [Streams.Event.isNull, Streams.Event.atStream]
    · exact ⟨_, rfl⟩
  | newStream =>
    simp only [stepApplication]
    split <;> exact ⟨_, rfl⟩
  | cloneHandle =>
    simp only [stepApplication]
    split <;> exact ⟨_, rfl⟩
  | dropHandle =>
    simp only [stepApplication]
    split <;> exact ⟨_, rfl⟩
  | pollConnection =>
    simp only [stepApplication]
    split <;> exact ⟨_, rfl⟩
  | _ => exact ⟨_, rfl⟩

/-- **No step panics**, as long as picoquic provides a buffer where it asks for data, and
there are ids for the requests. -/
theorem step_total (h : p.ctx.Numbered isClient done left) (hown : p.ctx.Own)
    (hl : p.ctx.AllLinked) (hfew : (done ++ left).length ≤ 2 ^ 62) (hnull : ¬ e.isNull) :
    ∃ p', p.step e = some p' := by
  rw [step]
  split
  · split
    · cases e with
      | callback cb => exact bind_total (hl.handleCallback hnull) fun c _ => ⟨_, rfl⟩
      | close codes => exact bind_total (hl.handleClose codes) fun c _ => ⟨_, rfl⟩
      | poll => exact bind_total (h.poll_total hown hl hfew) fun c _ => ⟨_, rfl⟩
      | drop => exact bind_total hl.drop fun c _ => ⟨_, rfl⟩
      | _ => exact ⟨_, rfl⟩
    · exact ⟨_, rfl⟩
  · exact stepApplication_total hl e

/-! ### Runs -/

/-- The requests of a run, in order. -/
abbrev requestsOf (isClient : Bool) (es : List Event) : List SType :=
  Trace.log step requests (new isClient) es

/-- **What is known along a run**: streams were created for the first requests, and the map has
a stream of one's own only if it is one of them. -/
structure Known (isClient : Bool) (es : List Event) (p : Ends) : Prop where
  numbered : ∃ done left, done ++ left = requestsOf isClient es ∧ p.ctx.Numbered isClient done left
  own : p.ctx.Own
  linked : p.ctx.AllLinked

theorem new_known (isClient : Bool) : Known isClient [] (new isClient) where
  numbered := ⟨[], [], rfl, rfl, rfl, rfl, rfl, rfl⟩
  own := by simp [Own, new, Context.new]
  linked := by simp [AllLinked, new, Context.new]

theorem Known.step {es : List Event} (hrun : (new isClient).run es = some p)
    (h : Known isClient es p) (hok : p.ownCreated e = true) (hstep : p.step e = some p') :
    Known isClient (es ++ [e]) p' := by
  obtain ⟨done, left, hall, hn⟩ := h.numbered
  obtain ⟨done', left', hall', hn'⟩ := step_numbered hn hstep
  refine ⟨⟨done', left', ?_, hn'⟩, step_own h.own hok hstep, step_allLinked h.linked hstep⟩
  rw [hall', hall, requestsOf, requestsOf, Trace.log_append hrun, Trace.log_singleton]

theorem run_known {es : List Event}
    (hown : Trace.Obeys step (fun p e => p.ownCreated e = true) (new isClient) es)
    (hrun : (new isClient).run es = some p) : Known isClient es p :=
  Trace.run_history (fun _ _ _ _ _ hrun h hok hstep => h.step hrun hok hstep) (new_known isClient)
    hown hrun

/-- **No run panics**, as long as picoquic provides a buffer where it asks for data, and there
are ids for the requests. -/
theorem run_total {es : List Event}
    (hown : Trace.Obeys step (fun p e => p.ownCreated e = true) (new isClient) es)
    (hfew : (requestsOf isClient es).length ≤ 2 ^ 62) (hnull : ∀ e ∈ es, ¬ e.isNull) :
    ∃ p, (new isClient).run es = some p := by
  refine Trace.run_safe (R := Known isClient)
    (fun _ _ _ _ _ hrun h hok hstep => h.step hrun hok hstep) ?_ (new_known isClient) hown
  intro es₁ e p hpre h hok
  obtain ⟨done, left, hall, hn⟩ := h.numbered
  have hmore : requestsOf isClient es₁ <+: requestsOf isClient es :=
    Trace.log_prefix ((List.prefix_append _ _).trans hpre)
  refine step_total hn h.own h.linked ?_ (hnull e (hpre.subset (by simp)))
  rw [hall]
  exact hmore.length_le.trans hfew

end Ends

end Connections

end PicoquicRs
