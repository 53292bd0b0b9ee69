import PicoquicRs.Endpoint.Loop
import PicoquicRs.Endpoint.Steps

/-!
# The connect requests

`check_for_new_connection_request` takes the connect requests one after the other. A name
with a null byte, or a refusal by picoquic, is an error: the request is dropped, and with it
its end of the future, and the loop goes on. An address that is unspecified is not an error,
but fails an assertion of `ffi::Connection::new`, and the event loop goes down with it; as it
does where `create_builder` overflows over the keep-alive interval
(`PicoquicRs.KeepAliveFits`).

Apart from that a request fails alone, wherever it is in the queue
(`PicoquicRs.Endpoint.ContextInner.connect_requests_fail_alone`): every round answers the
oldest request, and the outgoing connections are those of the requests that succeed, in
order (`PicoquicRs.Endpoint.ContextInner.Accounted`).
-/

namespace PicoquicRs

namespace Endpoint

open Futures

open Time (Duration)

/-! ### The outgoing connections -/

/-- A connection keeps its role. -/
theorem Cnx.step_role {c c' : Cnx} {e : Cnx.Event} (h : c.step e = some c') :
    c'.ends.ctx.isClient = c.ends.ctx.isClient := by
  obtain ⟨es, hes⟩ := step_ends h
  exact Connections.Ends.run_rule (P := fun ctx => ctx.isClient = c.ends.ctx.isClient)
    (fun _ _ h _ hrole => hrole.trans h) (fun _ _ _ h => h) rfl hes

namespace CContext

variable {c c' : CContext} {k : CnxRef}

/-- Which connections were made by the application, in the order of creation. -/
def roles (c : CContext) : List Bool := c.cnxs.map fun cnx => cnx.ends.ctx.isClient

/-- **The outgoing connections**, in the order of creation. -/
def outgoing (c : CContext) : List CnxRef := (c.roles.zipIdx.filter Prod.fst).map Prod.snd

theorem outgoing_of_roles (h : c'.roles = c.roles) : c'.outgoing = c.outgoing := by
  rw [outgoing, h, outgoing]

/-- An incoming connection is added. -/
theorem outgoing_of_incoming (h : c'.roles = c.roles ++ [false]) : c'.outgoing = c.outgoing := by
  rw [outgoing, h, List.zipIdx_append, List.filter_append, List.map_append]
  exact List.append_nil _

/-- An outgoing connection is added. -/
theorem outgoing_of_outgoing (h : c'.roles = c.roles ++ [true]) :
    c'.outgoing = c.outgoing ++ [c.cnxs.length] := by
  have hlen : c.roles.length = c.cnxs.length := List.length_map _
  rw [outgoing, h, List.zipIdx_append, List.filter_append, List.map_append, hlen, outgoing]
  rw [Nat.zero_add]
  rfl

theorem atCnx_roles {e : Cnx.Event} (h : c.atCnx k e = some c') : c'.roles = c.roles := by
  rcases atCnx_spec h with ⟨-, rfl⟩ | ⟨cnx, cnx', hk, hstep, rfl⟩
  · rfl
  · obtain ⟨hlt, rfl⟩ := List.getElem?_eq_some_iff.mp hk
    have hlen : k < c.roles.length := by rwa [roles, List.length_map]
    refine Eq.trans ?_ (List.set_getElem_self hlen)
    simp only [roles, List.map_set, List.getElem_map, Cnx.step_role hstep]

theorem atCnxs_roles {ks : List CnxRef} {e : Cnx.Event}
    (h : ks.foldlM (atCnx · · e) c = some c') : c'.roles = c.roles :=
  atCnxs_keeps (g := roles) atCnx_roles h

theorem mapM_roles {e : Cnx.Event} {l l' : List Cnx} (h : l.mapM (Cnx.step · e) = some l') :
    l'.map (fun cnx => cnx.ends.ctx.isClient) = l.map fun cnx => cnx.ends.ctx.isClient :=
  Each.mapM_map (fun _ _ => Cnx.step_role) h

/-- **Only an outgoing connection that is made counts.** -/
theorem step_outgoing {e : Event} (h : c.step e = some c') (hno : e.isOutgoing = false) :
    c'.outgoing = c.outgoing := by
  cases e with
  | poll =>
    obtain ⟨cnxs, hc, h⟩ := Option.bind_eq_some_iff.mp h
    obtain rfl := Option.some.inj h
    exact outgoing_of_roles (mapM_roles hc)
  | callback k cb => exact outgoing_of_roles (atCnx_roles h)
  | disconnect k => exact outgoing_of_roles (atCnx_roles h)
  | delete k => exact outgoing_of_roles (atCnx_roles h)
  | incoming isGoingToClose cb =>
    obtain rfl | ⟨cnx, hcnx, hcase⟩ := newConnectionCallback_cases h
    · rfl
    · have hrole : cnx.ends.ctx.isClient = false := by
        obtain ⟨es, hes⟩ := Cnx.connectionCallback_ends hcnx
        exact (Connections.Ends.run_sound hes).1
      have hpush : (c.push cnx).roles = c.roles ++ [false] := by
        rw [roles, push, List.map_append, List.map_singleton, ← hrole]
        rfl
      obtain ⟨-, rfl⟩ | ⟨-, h⟩ := hcase
      · exact outgoing_of_incoming hpush
      · exact outgoing_of_incoming ((atCnx_roles h).trans hpush)
  | outgoing keepAliveInterval waiting => simp [Event.isOutgoing] at hno
  | accept =>
    obtain rfl := Option.some.inj h
    rfl
  | dropIncoming =>
    exact outgoing_of_roles (atCnxs_roles (c := { c with sendCon := c.sendCon.dropReceiver }) h)
  | application k ae =>
    simp only [step] at h
    split at h
    · obtain rfl := Option.some.inj h
      rfl
    · exact outgoing_of_roles (atCnx_roles h)

/-- **An outgoing connection is made**, if it can be kept alive as it should: one context is put
into the vector, and the others are left alone. -/
theorem create_eq (c : CContext) (keepAliveInterval : Option Duration) (waiting : Bool) :
    ∃ cnx, c.create keepAliveInterval waiting =
        (createBuilder c.checks keepAliveInterval).map
          (fun _ => { c with cnxs := c.cnxs ++ [cnx] }) ∧
      cnx.listed = true ∧ cnx.ends.ctx.isClient = true := by
  cases waiting with
  | true =>
    refine ⟨(Cnx.new true).enlist, ?_, rfl, rfl⟩
    rw [create]
    cases createBuilder c.checks keepAliveInterval <;> rfl
  | false =>
    obtain ⟨cnx, hstep, hlisted, hrole⟩ : ∃ cnx,
        (Cnx.new true).enlist.step (.application .dropCreated) = some cnx ∧ cnx.listed = true ∧
          cnx.ends.ctx.isClient = true := ⟨_, rfl, rfl, rfl⟩
    have hdrop : (c.push (Cnx.new true)).atCnx c.cnxs.length (.application .dropCreated) =
        some { c with cnxs := c.cnxs ++ [cnx] } := by
      simp only [atCnx, push, List.getElem?_concat_length, hstep, Option.bind_eq_bind,
        Option.bind_some]
      rw [List.set_append_right _ _ (Nat.le_refl _), Nat.sub_self]
      rfl
    refine ⟨cnx, ?_, hlisted, hrole⟩
    rw [create]
    cases createBuilder c.checks keepAliveInterval with
    | none => rfl
    | some keepAlive => exact hdrop

theorem create_ne_none {keepAliveInterval : Option Duration} {waiting : Bool}
    (hfits : KeepAliveFits c.checks keepAliveInterval) :
    c.create keepAliveInterval waiting ≠ none := by
  obtain ⟨keepAlive, hkeepAlive⟩ := exists_createBuilder_iff.mpr hfits
  obtain ⟨cnx, hc, -⟩ := c.create_eq keepAliveInterval waiting
  rw [hc, hkeepAlive]
  exact Option.some_ne_none _

/-- What is there after an outgoing connection was made. -/
theorem create_spec {keepAliveInterval : Option Duration} {waiting : Bool}
    (h : c.create keepAliveInterval waiting = some c') :
    KeepAliveFits c.checks keepAliveInterval ∧
      ∃ cnx, c' = { c with cnxs := c.cnxs ++ [cnx] } ∧ cnx.listed = true ∧
        cnx.ends.ctx.isClient = true := by
  obtain ⟨cnx, hc, hcnx⟩ := c.create_eq keepAliveInterval waiting
  obtain ⟨keepAlive, hkeepAlive, hc'⟩ := Option.map_eq_some_iff.mp (hc.symm.trans h)
  exact ⟨exists_createBuilder_iff.mp ⟨keepAlive, hkeepAlive⟩, cnx, hc'.symm, hcnx⟩

end CContext

/-! ### The requests -/

namespace ContextInner

variable {c c' : ContextInner} {e : Event} {setup : Setup} {es : List Event}
variable {done : List (ConnectRef × Bool)}

/-- The request a round takes, with what picoquic says to it. -/
def attempts (c : ContextInner) : Event → List (ConnectRef × Bool)
  | .request created =>
    if c.phase = .requests then (c.recvConnect.queue.head?.map fun r => (r, created)).toList else []
  | _ => []

/-- All requests that were taken in a run, oldest first. -/
abbrev attemptsOf (setup : Setup) (es : List Event) : List (ConnectRef × Bool) :=
  Trace.log step attempts (new setup) es

/-- **`Connection::create` succeeds** for the request. -/
def succeeds (c : ContextInner) (a : ConnectRef × Bool) : Bool :=
  c.requests[a.1]?.any fun request => request.connectionNew a.2 == some true

/-- How a request ended, if it did. -/
def outcomeOf (c : ContextInner) (r : ConnectRef) : Option (Except Unit CnxRef) :=
  c.requests[r]?.bind ConnectRequest.outcome

/-- `<NewConnectionFuture as Future>::poll`: the outcome, `none` for `NotReady`. A request
whose sender was dropped is canceled; where there is a connection, it is asked. -/
def pollFuture (c : ContextInner) (r : ConnectRef) : Option (Except Error Unit) :=
  match c.outcomeOf r with
  | none => none
  | some (.error ()) => some (.error ErrorKind.internalError)
  | some (.ok k) => c.context.cnxs[k]?.bind fun cnx => cnx.ends.ctx.pollCreated.1

/-- **The requests are accounted for**: those in `done` were taken, in the order they were
made, and the others are in the queue and were not answered. The outgoing connections are those
of the requests that succeeded, in this order; the other ones failed, each for itself. -/
structure Accounted (c : ContextInner) (done : List (ConnectRef × Bool)) : Prop where
  order : c.phase ≠ .ended →
    done.map Prod.fst ++ c.recvConnect.queue = List.range c.requests.length
  known : ∀ a ∈ done, a.1 < c.requests.length
  made : (done.filter c.succeeds).map (fun a => c.outcomeOf a.1) =
    c.context.outgoing.map fun k => some (.ok k)
  failed : ∀ a ∈ done, c.succeeds a = false → c.outcomeOf a.1 = some (.error ())
  waiting : c.phase ≠ .ended → ∀ r ∈ c.recvConnect.queue, c.outcomeOf r = none
  isOpen : c.recvConnect.isOpen = (c.phase != .ended)

/-- Only what a request asks for and how it ended counts. -/
theorem requests_congr (h : c'.requests.map ConnectRequest.apart =
    c.requests.map ConnectRequest.apart) (r : ConnectRef) :
    c'.requests[r]?.map ConnectRequest.apart = c.requests[r]?.map ConnectRequest.apart := by
  rw [← List.getElem?_map, h, List.getElem?_map]

theorem outcomeOf_congr (h : c'.requests.map ConnectRequest.apart =
    c.requests.map ConnectRequest.apart) (r : ConnectRef) : c'.outcomeOf r = c.outcomeOf r := by
  have hr := congrArg (Option.bind · ConnectRequest.outcome) (requests_congr h r)
  simp only [Option.bind_map] at hr
  exact hr

theorem succeeds_congr (h : c'.requests.map ConnectRequest.apart =
    c.requests.map ConnectRequest.apart) (a : ConnectRef × Bool) :
    c'.succeeds a = c.succeeds a := by
  have hr := congrArg (Option.any fun request => request.connectionNew a.2 == some true)
    (requests_congr h a.1)
  simp only [Option.any_map] at hr
  exact hr

namespace Accounted

/-- What has nothing to do with the requests. -/
theorem same (h : c.Accounted done)
    (hr : c'.requests.map ConnectRequest.apart = c.requests.map ConnectRequest.apart)
    (hq : c'.recvConnect.queue = c.recvConnect.queue)
    (ho : c'.recvConnect.isOpen = c.recvConnect.isOpen)
    (hp : c'.phase = .ended ↔ c.phase = .ended)
    (hout : c'.context.outgoing = c.context.outgoing) : c'.Accounted done := by
  have hlen : c'.requests.length = c.requests.length := by
    simpa using congrArg List.length hr
  refine ⟨fun hne => ?_, fun a ha => ?_, ?_, fun a ha hs => ?_, fun hne r hmem => ?_, ?_⟩
  · rw [hq, hlen]
    exact h.order fun he => hne (hp.mpr he)
  · rw [hlen]
    exact h.known a ha
  · rw [hout, ← h.made, List.filter_congr fun a _ => succeeds_congr hr a]
    exact List.map_congr_left fun a _ => outcomeOf_congr hr a.1
  · rw [outcomeOf_congr hr]
    exact h.failed a ha (by rw [← succeeds_congr hr, hs])
  · rw [outcomeOf_congr hr]
    exact h.waiting (fun he => hne (hp.mpr he)) r (hq ▸ hmem)
  · rw [ho, h.isOpen]
    by_cases he : c.phase = .ended
    · rw [he, hp.mpr he]
    · have he' : c'.phase ≠ .ended := fun he' => he (hp.mp he')
      rw [bne_iff_ne.mpr he, bne_iff_ne.mpr he']

theorem aside (h : c.Accounted done) (ha : Aside c c') (hp : c'.phase = .ended ↔ c.phase = .ended)
    (hout : c'.context.outgoing = c.context.outgoing) : c'.Accounted done :=
  h.same ha.requests ha.queue ha.isOpen hp hout

/-- A request that was taken was answered. -/
theorem answered (h : c.Accounted done) {a : ConnectRef × Bool} (ha : a ∈ done) :
    ∃ o, c.outcomeOf a.1 = some o := by
  cases hs : c.succeeds a with
  | false => exact ⟨_, h.failed a ha hs⟩
  | true =>
    have hmem : c.outcomeOf a.1 ∈ (done.filter c.succeeds).map fun a => c.outcomeOf a.1 :=
      List.mem_map.mpr ⟨a, List.mem_filter.mpr ⟨ha, hs⟩, rfl⟩
    rw [h.made] at hmem
    obtain ⟨k, -, hk⟩ := List.mem_map.mp hmem
    exact ⟨_, hk.symm⟩

/-- **The loop ends**, and whoever still waits is told so. -/
theorem drop (h : c.Accounted done) : c.drop.Accounted done := by
  have hget : ∀ r : ConnectRef, c.drop.requests[r]? = c.requests[r]?.map
      fun request : ConnectRequest =>
        { request with outcome := some (request.outcome.getD (.error ())) } :=
    fun r => List.getElem?_map
  have hsucceeds : ∀ a, c.drop.succeeds a = c.succeeds a := fun a => by
    rw [succeeds, hget, Option.any_map]
    rfl
  have hout : ∀ a ∈ done, c.drop.outcomeOf a.1 = c.outcomeOf a.1 := fun a ha => by
    obtain ⟨o, ho⟩ := h.answered ha
    obtain ⟨request, hr, hrequest⟩ := Option.bind_eq_some_iff.mp ho
    rw [ho, outcomeOf, hget, hr, Option.map_some, Option.bind_some, hrequest, Option.getD_some]
  refine ⟨fun hne => absurd rfl hne, fun a ha => ?_, ?_, fun a ha hs => ?_,
    fun hne => absurd rfl hne, rfl⟩
  · have hlen : c.drop.requests.length = c.requests.length := List.length_map _
    rw [hlen]
    exact h.known a ha
  · have hcontext : c.drop.context = c.context := rfl
    rw [hcontext, ← h.made, List.filter_congr fun a _ => hsucceeds a]
    exact List.map_congr_left fun a ha => hout a (List.mem_of_mem_filter ha)
  · rw [hout a ha]
    exact h.failed a ha (by rw [← hsucceeds, hs])

/-- **A request is made**, and goes to the end of the queue. -/
theorem newConnection (h : c.Accounted done) (addr : SocketAddr) (serverName : String) :
    (c.newConnection addr serverName).Accounted done := by
  obtain ⟨recvConnect, outcome, hc, hcase⟩ : ∃ recvConnect outcome,
      c.newConnection addr serverName = { c with
        recvConnect
        requests := c.requests ++ [{ addr, serverName, waiting := true, outcome }] } ∧
      (c.phase ≠ .ended ∧ recvConnect = c.recvConnect.push c.requests.length ∧ outcome = none ∨
        c.phase = .ended ∧ recvConnect = c.recvConnect) := by
    by_cases he : c.phase = .ended
    · have ho : c.recvConnect.isOpen = false := by rw [h.isOpen, he]; rfl
      exact ⟨c.recvConnect, some (.error ()),
        by rw [ContextInner.newConnection, Chan.unboundedSend_of_closed ho], Or.inr ⟨he, rfl⟩⟩
    · have ho : c.recvConnect.isOpen = true := by rw [h.isOpen, bne_iff_ne.mpr he]
      exact ⟨c.recvConnect.push c.requests.length, none,
        by rw [ContextInner.newConnection, Chan.unboundedSend_of_open ho], Or.inl ⟨he, rfl, rfl⟩⟩
  rw [hc]
  have hget : ∀ r, r < c.requests.length →
      (c.requests ++ [{ addr, serverName, waiting := true, outcome }])[r]? = c.requests[r]? :=
    fun r hr => List.getElem?_append_left hr
  have hout : ∀ r, r < c.requests.length → ContextInner.outcomeOf { c with
      recvConnect, requests := c.requests ++ [{ addr, serverName, waiting := true, outcome }] } r =
      c.outcomeOf r := fun r hr => by
    rw [outcomeOf, hget r hr]
    rfl
  have hsucceeds : ∀ a ∈ done, ContextInner.succeeds { c with
      recvConnect, requests := c.requests ++ [{ addr, serverName, waiting := true, outcome }] } a =
      c.succeeds a := fun a ha => by
    rw [succeeds, hget a.1 (h.known a ha)]
    rfl
  refine ⟨fun hne => ?_, fun a ha => ?_, ?_, fun a ha hs => ?_, fun hne r hmem => ?_, ?_⟩
  · obtain ⟨-, rfl, -⟩ | ⟨he, -⟩ := hcase
    · rw [Chan.push_queue, ← List.append_assoc, h.order hne, List.length_append,
        List.length_singleton, List.range_succ]
    · exact absurd he hne
  · rw [List.length_append]
    exact Nat.lt_add_right _ (h.known a ha)
  · rw [List.filter_congr hsucceeds, ← h.made]
    exact List.map_congr_left fun a ha => hout a.1 (h.known a (List.mem_of_mem_filter ha))
  · rw [hout a.1 (h.known a ha)]
    exact h.failed a ha (by rw [← hsucceeds a ha, hs])
  · obtain ⟨-, rfl, rfl⟩ | ⟨he, -⟩ := hcase
    · rw [Chan.push_queue] at hmem
      rcases List.mem_append.mp hmem with hmem | hmem
      · have hlt : r < c.requests.length := by
          have hr := List.mem_append_right (done.map Prod.fst) hmem
          rw [h.order hne] at hr
          exact List.mem_range.mp hr
        rw [hout r hlt]
        exact h.waiting hne r hmem
      · obtain rfl := List.mem_singleton.mp hmem
        rw [outcomeOf]
        simp only [List.getElem?_concat_length, Option.bind_some]
    · exact absurd he hne
  · obtain ⟨-, rfl, -⟩ | ⟨-, rfl⟩ := hcase
    · exact h.isOpen
    · exact h.isOpen

/-- **The oldest request is answered.** -/
theorem take {r : ConnectRef} {q : List ConnectRef} {request : ConnectRequest} {created : Bool}
    (h : c.Accounted done) (hne : c.phase ≠ .ended) (hq : c.recvConnect.queue = r :: q)
    (hr : c.requests[r]? = some request) {recvConnect : Chan ConnectRef} {context : CContext}
    {o : Except Unit CnxRef} (hqueue : recvConnect.queue = q)
    (hopen : recvConnect.isOpen = c.recvConnect.isOpen)
    (hcase : request.connectionNew created = some false ∧ o = .error () ∧
        context.outgoing = c.context.outgoing ∨
      ∃ k, request.connectionNew created = some true ∧ o = .ok k ∧
        context.outgoing = c.context.outgoing ++ [k]) :
    ContextInner.Accounted { c with
      recvConnect, context, requests := c.requests.set r { request with outcome := some o } }
      (done ++ [(r, created)]) := by
  have horder := h.order hne
  rw [hq] at horder
  have hnodup : (done.map Prod.fst ++ r :: q).Nodup := horder ▸ List.nodup_range
  have hnew : ∀ a ∈ done, a.1 ≠ r := by
    rintro a ha rfl
    exact (List.nodup_append.mp hnodup).2.2 _ (List.mem_map_of_mem ha) _ List.mem_cons_self rfl
  have hlt := (List.getElem?_eq_some_iff.mp hr).choose
  have hget : ∀ r', (c.requests.set r { request with outcome := some o })[r']? =
      if r = r' then some { request with outcome := some o } else c.requests[r']? := fun r' => by
    by_cases heq : r = r'
    · rw [← heq, if_pos rfl, List.getElem?_set_self hlt]
    · rw [if_neg heq, List.getElem?_set_ne heq]
  have hout : ∀ r', ContextInner.outcomeOf { c with
      recvConnect, context, requests := c.requests.set r { request with outcome := some o } } r' =
      if r = r' then some o else c.outcomeOf r' := fun r' => by
    rw [outcomeOf, hget r']
    split <;> rfl
  have hsucceeds : ∀ a, ContextInner.succeeds { c with
      recvConnect, context, requests := c.requests.set r { request with outcome := some o } } a =
      c.succeeds a := fun a => by
    rw [succeeds, hget a.1, succeeds]
    split
    · rename_i heq
      rw [← heq, hr]
      rfl
    · rfl
  have hself : c.succeeds (r, created) = (request.connectionNew created == some true) := by
    rw [succeeds, hr, Option.any_some]
  have hmade : ((done.filter c.succeeds).map fun a => if r = a.1 then some o else c.outcomeOf a.1) =
      c.context.outgoing.map fun k => some (.ok k) := by
    rw [← h.made]
    exact List.map_congr_left fun a ha =>
      if_neg fun heq => hnew a (List.mem_of_mem_filter ha) heq.symm
  refine ⟨fun _ => ?_, fun a ha => ?_, ?_, fun a ha hs => ?_, fun _ r' hmem => ?_, ?_⟩
  · rw [List.map_append, List.map_singleton, List.append_assoc, List.length_set, ← horder, hqueue]
    rfl
  · rw [List.length_set]
    rcases List.mem_append.mp ha with ha | ha
    · exact h.known a ha
    · obtain rfl := List.mem_singleton.mp ha
      exact hlt
  · simp only [hout]
    rw [List.filter_congr fun a _ => hsucceeds a, List.filter_append, List.map_append, hmade]
    rcases hcase with ⟨hno, -, hsame⟩ | ⟨k, hyes, rfl, hadd⟩
    · rw [hsame, List.filter_singleton, hself, hno]
      exact List.append_nil _
    · rw [hadd, List.filter_singleton, hself, hyes, List.map_append]
      simp
  · rw [hout]
    rcases List.mem_append.mp ha with ha | ha
    · rw [if_neg fun heq => hnew a ha heq.symm]
      exact h.failed a ha (by rw [← hsucceeds, hs])
    · obtain rfl := List.mem_singleton.mp ha
      rw [if_pos rfl]
      rcases hcase with ⟨-, rfl, -⟩ | ⟨k, hyes, -, -⟩
      · rfl
      · rw [hsucceeds, hself, hyes] at hs
        exact absurd hs (by simp)
  · have hne' : r ≠ r' := by
      rintro rfl
      have hq := (List.nodup_append.mp hnodup).2.1
      exact (List.nodup_cons.mp hq).1 (hqueue ▸ hmem)
    rw [hout, if_neg hne']
    exact h.waiting hne r' (hq ▸ List.mem_cons_of_mem _ (hqueue ▸ hmem))
  · exact hopen.trans h.isOpen

end Accounted

/-! ### Rounds -/

/-- The request is for an address that is unspecified. -/
def unspecified (c : ContextInner) (r : ConnectRef) : Bool :=
  c.requests[r]?.any fun request => request.addr.ip.isUnspecified

/-- **A round answers the oldest request**: it panics, over the address or over the keep-alive
interval, or the request fails, or one context is added. -/
theorem checkForNewConnectionRequest_cons {r : ConnectRef} {q : List ConnectRef}
    {request : ConnectRequest} (hq : c.recvConnect.queue = r :: q)
    (hr : c.requests[r]? = some request) (created : Bool) :
    ∃ recvConnect, recvConnect.queue = q ∧ recvConnect.isOpen = c.recvConnect.isOpen ∧
      ((request.connectionNew created = none ∨ request.connectionNew created = some true ∧
          ¬ KeepAliveFits c.context.checks c.clientKeepAliveInterval) ∧
          c.checkForNewConnectionRequest created = none ∨
        request.connectionNew created = some false ∧
          c.checkForNewConnectionRequest created = some { c with
            recvConnect
            requests := c.requests.set r { request with outcome := some (.error ()) } } ∨
        ∃ cnx, request.connectionNew created = some true ∧
          KeepAliveFits c.context.checks c.clientKeepAliveInterval ∧
          cnx.listed = true ∧ cnx.ends.ctx.isClient = true ∧
          c.checkForNewConnectionRequest created = some { c with
            recvConnect
            context := { c.context with cnxs := c.context.cnxs ++ [cnx] }
            requests := c.requests.set r
              { request with outcome := some (.ok c.context.cnxs.length) } }) := by
  refine ⟨{ c.recvConnect with queue := q, registered := false }, rfl, rfl, ?_⟩
  rw [checkForNewConnectionRequest, Chan.poll_of_cons hq]
  simp only [hr]
  cases hnew : request.connectionNew created with
  | none => exact Or.inl ⟨Or.inl rfl, rfl⟩
  | some b =>
    cases b with
    | false => exact Or.inr (Or.inl ⟨rfl, rfl⟩)
    | true =>
      cases hcreate : c.context.step (.outgoing c.clientKeepAliveInterval request.waiting) with
      | none =>
        have hlong := fun hfits => CContext.create_ne_none hfits hcreate
        exact Or.inl ⟨Or.inr ⟨rfl, hlong⟩, rfl⟩
      | some context =>
        obtain ⟨hfits, cnx, rfl, hcnx⟩ := CContext.create_spec hcreate
        exact Or.inr (Or.inr ⟨cnx, rfl, hfits, hcnx.1, hcnx.2, rfl⟩)

theorem connectionNew_eq_none {request : ConnectRequest} {created : Bool} :
    request.connectionNew created = none ↔ request.addr.ip.isUnspecified = true := by
  rw [ConnectRequest.connectionNew]
  split
  · simp [*]
  · simp [*]

theorem possible_request (hp : c.phase = .requests) (created : Bool) :
    Event.possible (.request created) c.phase = true := by
  rw [hp]
  rfl

theorem attempts_request (hp : c.phase = .requests) (created : Bool) :
    c.attempts (.request created) =
      (c.recvConnect.queue.head?.map fun r => (r, created)).toList := if_pos hp

/-- The request that is next is there. -/
theorem Accounted.head (h : c.Accounted done) (hne : c.phase ≠ .ended) {r : ConnectRef}
    {q : List ConnectRef} (hq : c.recvConnect.queue = r :: q) :
    ∃ request, c.requests[r]? = some request := by
  have horder := h.order hne
  have hmem : r ∈ done.map Prod.fst ++ c.recvConnect.queue := by
    rw [hq]
    exact List.mem_append_right _ List.mem_cons_self
  rw [horder, List.mem_range] at hmem
  exact ⟨_, List.getElem?_eq_getElem hmem⟩

/-- **A round keeps the account.** -/
theorem Accounted.round (h : c.Accounted done) (hp : c.phase = .requests) {created : Bool}
    (hc : c.checkForNewConnectionRequest created = some c') :
    c'.Accounted (done ++ c.attempts (.request created)) := by
  have hne : c.phase ≠ .ended := by simp [hp]
  rw [attempts_request hp]
  cases hq : c.recvConnect.queue with
  | nil =>
    rw [checkForNewConnectionRequest_nil hq] at hc
    obtain rfl := Option.some.inj hc
    rw [List.head?_nil, Option.map_none, Option.toList_none, List.append_nil]
    exact h.same rfl (by simp [hq]) (by simp) (by simp [hp]) rfl
  | cons r q =>
    obtain ⟨request, hr⟩ := h.head hne hq
    rw [List.head?_cons, Option.map_some, Option.toList_some]
    obtain ⟨recvConnect, hqueue, hopen, ⟨-, hc'⟩ | ⟨hno, hc'⟩ | ⟨cnx, hyes, -, -, hrole, hc'⟩⟩ :=
      checkForNewConnectionRequest_cons hq hr created
    · rw [hc'] at hc
      exact absurd hc (by simp)
    · obtain rfl := Option.some.inj (hc'.symm.trans hc)
      exact h.take hne hq hr hqueue hopen (Or.inl ⟨hno, rfl, rfl⟩)
    · obtain rfl := Option.some.inj (hc'.symm.trans hc)
      refine h.take hne hq hr hqueue hopen (Or.inr ⟨_, hyes, rfl, ?_⟩)
      refine CContext.outgoing_of_outgoing ?_
      rw [CContext.roles, List.map_append, List.map_singleton, hrole, CContext.roles]

/-- What the application does keeps the account. -/
theorem Accounted.stepApplication (h : c.Accounted done) {call : Call}
    (hc : c.stepApplication call = some c') : c'.Accounted done := by
  have hspec := stepApplication_spec hc
  by_cases hnew : ∃ addr serverName, call = .newConnection addr serverName
  · obtain ⟨addr, serverName, rfl⟩ := hnew
    obtain rfl := Option.some.inj hc
    split
    · exact h.newConnection addr serverName
    · exact h
  · refine h.aside (stepApplication_aside hc fun addr serverName hcall =>
      hnew ⟨addr, serverName, hcall⟩) (by rw [hspec.2.1]) ?_
    rcases hspec.2.2.acts with hsame | ⟨e, -, hout, hstep⟩
    · rw [hsame]
    · exact CContext.step_outgoing hstep hout

/-- Outside `check_for_new_connection_request` no outgoing connection is made. -/
theorem step_outgoing (h : c.step e = some c') (hno : ∀ created, e ≠ .request created) :
    c'.context.outgoing = c.context.outgoing := by
  rcases step_acts h with (hsame | ⟨e', -, hout, hstep⟩) | ⟨created, rfl, -⟩ |
    ⟨k, cnx, -, -, -, -, hstep⟩
  · rw [hsame]
  · exact CContext.step_outgoing hstep hout
  · exact absurd rfl (hno created)
  · exact CContext.step_outgoing hstep rfl

/-- **Every step keeps the account.** -/
theorem Accounted.step (h : c.Accounted done) (hc : c.step e = some c') :
    c'.Accounted (done ++ c.attempts e) := by
  by_cases hreq : ∃ created, e = .request created
  · obtain ⟨created, rfl⟩ := hreq
    rw [ContextInner.step] at hc
    by_cases hp : c.phase = .requests
    · rw [if_pos (possible_request hp created)] at hc
      exact h.round hp hc
    · rw [if_neg fun hpos => hp (phase_of_possible hpos rfl)] at hc
      obtain rfl := Option.some.inj hc
      rw [attempts, if_neg hp, List.append_nil]
      exact h
  have hout := step_outgoing hc fun created he => hreq ⟨created, he⟩
  have hattempts : c.attempts e = [] := by
    cases e <;> first | rfl | exact absurd ⟨_, rfl⟩ hreq
  rw [hattempts, List.append_nil]
  rw [ContextInner.step] at hc
  split at hc
  · rename_i hpos
    have hne : (∀ call, e ≠ .application call) → c.phase ≠ .ended := by
      rintro hno he
      rw [he] at hpos
      cases e <;> first | exact hno _ rfl | exact absurd hpos (by simp [Event.possible])
    cases e with
    | poll =>
      obtain rfl := Option.some.inj hc
      exact h.same rfl rfl rfl (by simp [hne (by simp)]) hout
    | contexts =>
      obtain ⟨context, -, hc⟩ := Option.bind_eq_some_iff.mp hc
      obtain rfl := Option.some.inj hc
      have hcontext : context.outgoing = c.context.outgoing := by
        refine Eq.trans ?_ hout
        split <;> rfl
      have h₁ : ContextInner.Accounted { c with context } done :=
        h.same rfl rfl rfl Iff.rfl hcontext
      split
      · exact h₁.drop
      · exact h₁.same rfl rfl rfl (by simp [hne (by simp)]) rfl
    | request created => exact absurd ⟨created, rfl⟩ hreq
    | receive r =>
      obtain rfl := Option.some.inj hc
      have hphase := hne (by simp)
      cases r <;> exact h.same rfl rfl rfl (by simp [checkForIncomingData, hphase]) rfl
    | incomingPacketReturns bytes stateless =>
      obtain rfl := Option.some.inj hc
      obtain ⟨len, hp⟩ := incomingPacket_of_possible hpos
      rw [incomingPacketReturns, hp]
      exact h.same rfl rfl rfl (by simp [hp]) rfl
    | stateless answer =>
      obtain rfl := Option.some.inj hc
      have hphase := hne (by simp)
      rcases sendStatelessPackets_spec c answer with ⟨-, hc⟩ |
        ⟨packet, stateless, phase, -, hc, rfl⟩ <;> rw [hc]
      · exact h.same rfl rfl rfl (by simp [hphase]) rfl
      · refine h.same rfl rfl rfl ?_ rfl
        split
        · exact Iff.rfl
        · simp [hphase]
    | flush answer =>
      refine h.aside (flushPending_aside hc) ?_ hout
      rcases flushPending_phase hc with hp | hp <;> simp [hp, hne (by simp)]
    | due d =>
      have hp : c.phase = .connections := phase_of_possible hpos rfl
      refine h.aside (nextConnection_aside hc) ?_ hout
      rcases nextConnection_phase hp hc with hp' | ⟨-, hp' | hp'⟩ <;> simp [hp', hp]
    | packetPrepared bytes ret answer =>
      refine h.aside (packetPrepared_aside hc) ?_ hout
      rcases packetPrepared_phase hc with hp | ⟨-, hp⟩ <;> simp [hp, hne (by simp)]
    | sleep nextWake =>
      obtain rfl := Option.some.inj hc
      have hphase := hne (by simp)
      rw [sleep]
      split
      · exact h.same rfl rfl rfl (by simp [hphase]) rfl
      · split <;> exact h.same rfl rfl rfl (by simp [hphase]) rfl
    | quic e =>
      obtain ⟨context, -, hc⟩ := Option.bind_eq_some_iff.mp hc
      obtain rfl := Option.some.inj hc
      exact h.same rfl rfl rfl Iff.rfl hout
    | application call => exact h.stepApplication hc
  · obtain rfl := Option.some.inj hc
    exact h

/-- **In every run the requests are accounted for.** -/
theorem run_accounted (hrun : (new setup).run es = some c) :
    c.Accounted (attemptsOf setup es) := by
  refine Trace.run_records
    (R := fun es c => c.Accounted (attemptsOf setup es)) ?_ ?_ hrun
  · rintro es e c c' hrun h hstep
    rw [attemptsOf, Trace.log_append hrun, Trace.log_singleton]
    exact h.step hstep
  · exact ⟨fun _ => rfl, by simp [attemptsOf, Trace.log], rfl, by simp [attemptsOf, Trace.log],
      fun _ r hr => by simp [new, Chan.new] at hr, rfl⟩

/-! ### How the connections are kept alive -/

/-- **How connections are kept alive was settled at the start.** -/
theorem step_keepAlive (h : c.step e = some c') :
    c'.context.checks = c.context.checks ∧
      c'.clientKeepAliveInterval = c.clientKeepAliveInterval ∧
      c'.context.serverKeepAliveInterval = c.context.serverKeepAliveInterval := by
  have hcontext : c'.context.checks = c.context.checks ∧
      c'.context.serverKeepAliveInterval = c.context.serverKeepAliveInterval := by
    rcases step_context h with (hsame | ⟨e', -, hstep⟩) | ⟨k, cnx, -, -, -, -, hstep⟩
    · rw [hsame]
      exact ⟨rfl, rfl⟩
    · exact CContext.step_keepAlive hstep
    · exact CContext.step_keepAlive hstep
  refine ⟨hcontext.1, ?_, hcontext.2⟩
  rw [ContextInner.step] at h
  split at h
  · cases e with
    | poll =>
      obtain rfl := Option.some.inj h
      rfl
    | contexts =>
      obtain ⟨context, -, h⟩ := Option.bind_eq_some_iff.mp h
      obtain rfl := Option.some.inj h
      split <;> rfl
    | request created =>
      obtain ⟨context, requests, phase, rfl, -, -⟩ := checkForNewConnectionRequest_frame h
      rfl
    | receive r =>
      obtain rfl := Option.some.inj h
      cases r <;> rfl
    | incomingPacketReturns bytes stateless =>
      obtain rfl := Option.some.inj h
      rw [incomingPacketReturns]
      split <;> rfl
    | stateless answer =>
      obtain rfl := Option.some.inj h
      rcases sendStatelessPackets_spec c answer with ⟨-, hc⟩ |
        ⟨packet, stateless, phase, -, hc, -⟩ <;> rw [hc]
    | flush answer =>
      obtain ⟨notSendLength, packets, phase, rfl⟩ := flushPending_frame h
      rfl
    | due d =>
      obtain ⟨context, phase, rfl⟩ := nextConnection_frame h
      rfl
    | packetPrepared bytes ret answer =>
      obtain ⟨buffer, notSendLength, packets, phase, rfl⟩ := packetPrepared_frame h
      rfl
    | sleep nextWake =>
      obtain rfl := Option.some.inj h
      rw [sleep]
      split
      · rfl
      · split <;> rfl
    | quic q =>
      obtain ⟨context, -, h⟩ := Option.bind_eq_some_iff.mp h
      obtain rfl := Option.some.inj h
      rfl
    | application call =>
      rcases stepApplication_cases h with ⟨addr, serverName, -, -, rfl⟩ |
        ⟨context, closeHandle, requests, recvConnect, rfl, -, -⟩ <;> rfl
  · obtain rfl := Option.some.inj h
    rfl

theorem run_keepAlive (hrun : (new setup).run es = some c) :
    c.context.checks = setup.checks ∧
      c.clientKeepAliveInterval = setup.config.keepAliveIntervals.1 ∧
      c.context.serverKeepAliveInterval = setup.config.keepAliveIntervals.2 := by
  refine Trace.run_keeps (P := fun c : ContextInner => c.context.checks = setup.checks ∧
      c.clientKeepAliveInterval = setup.config.keepAliveIntervals.1 ∧
      c.context.serverKeepAliveInterval = setup.config.keepAliveIntervals.2) ?_ ⟨rfl, rfl, rfl⟩ hrun
  rintro c e - c' ⟨hchecks, hclient, hserver⟩ hstep
  obtain ⟨h₁, h₂, h₃⟩ := step_keepAlive hstep
  exact ⟨h₁.trans hchecks, h₂.trans hclient, h₃.trans hserver⟩

/-! ### What a bad request does to the others -/

/-- What follows for the ones that wait: a request that failed is told so, and one that is still
in the queue is not told anything. -/
theorem Accounted.told (h : c.Accounted done) :
    (∀ a ∈ done, c.succeeds a = false →
      c.pollFuture a.1 = some (.error ErrorKind.internalError)) ∧
    (c.phase ≠ .ended → ∀ r ∈ c.recvConnect.queue, c.pollFuture r = none) := by
  refine ⟨fun a ha hs => ?_, fun hne r hr => ?_⟩
  · rw [pollFuture, h.failed a ha hs]
  · rw [pollFuture, h.waiting hne r hr]

/-- The connection of a request that succeeded is there. -/
theorem Accounted.made_lt (h : c.Accounted done) (hne : c.phase ≠ .ended) {r : ConnectRef}
    {k : CnxRef} (hr : c.outcomeOf r = some (.ok k)) : k < c.context.cnxs.length := by
  have hmem : r ∈ done.map Prod.fst ++ c.recvConnect.queue := by
    rw [h.order hne, List.mem_range]
    by_contra hle
    rw [outcomeOf, List.getElem?_eq_none (Nat.le_of_not_lt hle)] at hr
    exact absurd hr (by simp)
  rcases List.mem_append.mp hmem with hdone | hqueue
  · obtain ⟨a, ha, rfl⟩ := List.mem_map.mp hdone
    cases hs : c.succeeds a with
    | false => exact absurd (hr.symm.trans (h.failed a ha hs)) (by simp)
    | true =>
      have hmade : some (.ok k) ∈ (done.filter c.succeeds).map fun a => c.outcomeOf a.1 :=
        List.mem_map.mpr ⟨a, List.mem_filter.mpr ⟨ha, hs⟩, hr⟩
      rw [h.made] at hmade
      obtain ⟨k', hk', heq⟩ := List.mem_map.mp hmade
      obtain rfl := Except.ok.inj (Option.some.inj heq)
      obtain ⟨x, hx, rfl⟩ := List.mem_map.mp hk'
      have hlt := List.snd_lt_of_mem_zipIdx (List.mem_of_mem_filter hx)
      rwa [CContext.roles, List.length_map] at hlt
  · exact absurd (hr.symm.trans (h.waiting hne r hqueue)) (by simp)

/-- **A round tells nobody else anything.** -/
theorem Accounted.request_frame (h : c.Accounted done) (hp : c.phase = .requests) {created : Bool}
    (hc : c.checkForNewConnectionRequest created = some c') {r : ConnectRef}
    (hr : ∀ a ∈ c.attempts (.request created), a.1 ≠ r) : c'.pollFuture r = c.pollFuture r := by
  have hne : c.phase ≠ .ended := by simp [hp]
  rw [attempts_request hp] at hr
  cases hq : c.recvConnect.queue with
  | nil =>
    rw [checkForNewConnectionRequest_nil hq] at hc
    obtain rfl := Option.some.inj hc
    rfl
  | cons r' q =>
    obtain ⟨request, hrequest⟩ := h.head hne hq
    rw [hq, List.head?_cons, Option.map_some, Option.toList_some] at hr
    have hother : ∀ request : ConnectRequest,
        (c.requests.set r' request)[r]? = c.requests[r]? := fun request =>
      List.getElem?_set_ne (hr _ List.mem_cons_self)
    obtain ⟨recvConnect, -, -, ⟨-, hc'⟩ | ⟨-, hc'⟩ | ⟨cnx, -, -, -, -, hc'⟩⟩ :=
      checkForNewConnectionRequest_cons hq hrequest created
    · exact absurd (hc'.symm.trans hc) (by simp)
    · obtain rfl := Option.some.inj (hc'.symm.trans hc)
      simp only [pollFuture, outcomeOf, hother]
    · obtain rfl := Option.some.inj (hc'.symm.trans hc)
      simp only [pollFuture, outcomeOf, hother]
      cases ho : c.requests[r]?.bind ConnectRequest.outcome with
      | none => rfl
      | some o =>
        cases o with
        | error e => rfl
        | ok k => simp only [List.getElem?_append_left (h.made_lt hne ho)]

/-- **A round adds the connection of the request it takes**, or nothing. -/
theorem request_adds (hp : c.phase = .requests) {created : Bool}
    (hc : c.step (.request created) = some c') :
    (∃ a ∈ c.attempts (.request created), c.succeeds a = true ∧ ∃ cnx, cnx.listed = true ∧
      c'.context = { c.context with cnxs := c.context.cnxs ++ [cnx] }) ∨
    (∀ a ∈ c.attempts (.request created), c.succeeds a = false) ∧ c'.context = c.context := by
  rw [step, if_pos (possible_request hp created)] at hc
  rw [attempts_request hp]
  cases hq : c.recvConnect.queue with
  | nil =>
    rw [take, checkForNewConnectionRequest_nil hq] at hc
    obtain rfl := Option.some.inj hc
    exact Or.inr ⟨fun a ha => absurd ha (by simp), rfl⟩
  | cons r q =>
    rw [List.head?_cons, Option.map_some, Option.toList_some]
    cases hr : c.requests[r]? with
    | none =>
      have hno : c.succeeds (r, created) = false := by rw [succeeds, hr, Option.any_none]
      simp only [take, checkForNewConnectionRequest, Chan.poll_of_cons hq, hr] at hc
      obtain rfl := Option.some.inj hc
      exact Or.inr ⟨fun a ha => List.mem_singleton.mp ha ▸ hno, rfl⟩
    | some request =>
      have hself : c.succeeds (r, created) = (request.connectionNew created == some true) := by
        rw [succeeds, hr, Option.any_some]
      obtain ⟨recvConnect, -, -, ⟨-, hc'⟩ | ⟨hno, hc'⟩ | ⟨cnx, hyes, -, hlisted, -, hc'⟩⟩ :=
        checkForNewConnectionRequest_cons hq hr created
      · exact absurd (hc'.symm.trans hc) (by simp)
      · obtain rfl := Option.some.inj (hc'.symm.trans hc)
        refine Or.inr ⟨fun a ha => ?_, rfl⟩
        rw [List.mem_singleton.mp ha, hself, hno]
        rfl
      · obtain rfl := Option.some.inj (hc'.symm.trans hc)
        refine Or.inl ⟨_, List.mem_singleton_self _, ?_, cnx, hlisted, rfl⟩
        rw [hself, hyes]
        rfl

/-- Answering a request does not change what is asked for. -/
theorem unspecified_set {r : ConnectRef} {request : ConnectRequest}
    (hr : c.requests[r]? = some request) {o : Option (Except Unit CnxRef)}
    (hset : c'.requests = c.requests.set r { request with outcome := o }) (r' : ConnectRef) :
    c'.unspecified r' = c.unspecified r' := by
  rw [unspecified, unspecified, hset]
  by_cases heq : r = r'
  · rw [← heq, List.getElem?_set_self (List.getElem?_eq_some_iff.mp hr).choose, hr]
    rfl
  · rw [List.getElem?_set_ne heq]

/-- **A round panics exactly if the oldest request is for an address that is unspecified**, where
connections can be kept alive as they should; else the loop goes on with the others, which ask for
what they asked for. -/
theorem checkForNewConnectionRequest_goes_on {r : ConnectRef} {q : List ConnectRef}
    {request : ConnectRequest} (hp : c.phase = .requests) (hq : c.recvConnect.queue = r :: q)
    (hr : c.requests[r]? = some request)
    (hfits : KeepAliveFits c.context.checks c.clientKeepAliveInterval) (created : Bool) :
    c.unspecified r = true ∧ c.step (.request created) = none ∨
      c.unspecified r = false ∧ ∃ c', c.step (.request created) = some c' ∧
        c'.phase = .requests ∧ c'.recvConnect.queue = q ∧
        ∀ r', c'.unspecified r' = c.unspecified r' := by
  have hhead : c.unspecified r = request.addr.ip.isUnspecified := by
    rw [unspecified, hr, Option.any_some]
  have hspecified : ∀ b, request.connectionNew created = some b →
      request.addr.ip.isUnspecified = false := fun b hb => by
    refine Bool.eq_false_iff.mpr fun hu => ?_
    rw [connectionNew_eq_none.mpr hu] at hb
    exact Option.some_ne_none b hb.symm
  rw [step, if_pos (possible_request hp created), hhead, take]
  obtain ⟨recvConnect, hqueue, -, ⟨hno | ⟨-, hlong⟩, hc'⟩ | ⟨hb, hc'⟩ | ⟨cnx, hb, -, -, -, hc'⟩⟩ :=
    checkForNewConnectionRequest_cons hq hr created
  · exact Or.inl ⟨connectionNew_eq_none.mp hno, hc'⟩
  · exact absurd hfits hlong
  · exact Or.inr ⟨hspecified _ hb, _, hc', hp, hqueue, unspecified_set hr rfl⟩
  · exact Or.inr ⟨hspecified _ hb, _, hc', hp, hqueue, unspecified_set hr rfl⟩

/-- **The loop gets through the queue exactly if no request is for an address that is
unspecified**, where connections can be kept alive as they should. -/
theorem requests_return (h : c.Accounted done) (hp : c.phase = .requests)
    (hfits : KeepAliveFits c.context.checks c.clientKeepAliveInterval)
    {answers : List Bool} (hlen : answers.length = c.recvConnect.queue.length + 1) :
    (∃ c', c.run (answers.map .request) = some c' ∧ c'.phase = .incoming ∧
      c'.recvConnect.queue = []) ↔ ∀ r ∈ c.recvConnect.queue, c.unspecified r = false := by
  induction answers generalizing c done with
  | nil => exact absurd hlen (by simp)
  | cons created answers ih =>
    have hrun : c.run ((created :: answers).map .request) =
        (c.step (.request created)).bind fun c' => c'.run (answers.map .request) := rfl
    rw [hrun]
    cases hq : c.recvConnect.queue with
    | nil =>
      obtain rfl : answers = [] := by
        rwa [hq, List.length_cons, List.length_nil, Nat.add_right_cancel_iff,
          List.length_eq_zero_iff] at hlen
      rw [step, if_pos (possible_request hp created), take, checkForNewConnectionRequest_nil hq]
      exact iff_of_true ⟨_, rfl, rfl, by simp [hq]⟩ fun r hr => absurd hr List.not_mem_nil
    | cons r q =>
      obtain ⟨request, hr⟩ := h.head (by simp [hp]) hq
      rw [List.forall_mem_cons]
      obtain ⟨hbad, hstep⟩ | ⟨hgood, c', hstep, hp', hq', hsame⟩ :=
        checkForNewConnectionRequest_goes_on hp hq hr hfits created
      · rw [hstep, hbad]
        exact iff_of_false (by simp) (by simp)
      · have hlen' : answers.length = c'.recvConnect.queue.length + 1 := by
          rw [hq, List.length_cons, List.length_cons] at hlen
          rw [hq']
          omega
        obtain ⟨hchecks, hclient, -⟩ := step_keepAlive hstep
        have hrest := ih (h.step hstep) hp' (by rwa [hchecks, hclient]) hlen'
        rw [hstep, Option.bind_some, hrest, hq']
        simp only [hsame, hgood, true_and]

/-- **A connect request fails alone**, unless it is for an address that is unspecified. In
every run the requests are accounted for: they were taken in order, those that succeeded made
the outgoing connections, in order, and the others failed. A request that failed is told so,
and nobody else is. Where the keep-alive interval for outgoing connections is short enough, the
loop over the requests that are there gets through the queue, whatever picoquic answers, exactly if
none of them is for an unspecified address. -/
theorem connect_requests_fail_alone (hrun : (new setup).run es = some c) :
    c.Accounted (attemptsOf setup es) ∧
    (∀ a ∈ attemptsOf setup es, c.succeeds a = false →
      c.pollFuture a.1 = some (.error ErrorKind.internalError)) ∧
    (c.phase ≠ .ended → ∀ r ∈ c.recvConnect.queue, c.pollFuture r = none) ∧
    (c.phase = .requests →
      (∀ created c', c.step (.request created) = some c' →
        ((∃ a ∈ c.attempts (.request created), c.succeeds a = true ∧ ∃ cnx, cnx.listed = true ∧
            c'.context = { c.context with cnxs := c.context.cnxs ++ [cnx] }) ∨
          (∀ a ∈ c.attempts (.request created), c.succeeds a = false) ∧
            c'.context = c.context) ∧
        ∀ r, (∀ a ∈ c.attempts (.request created), a.1 ≠ r) → c'.pollFuture r = c.pollFuture r) ∧
      (KeepAliveFits setup.checks setup.config.keepAliveIntervals.1 →
        ∀ answers : List Bool, answers.length = c.recvConnect.queue.length + 1 →
          ((∃ c', c.run (answers.map .request) = some c' ∧ c'.phase = .incoming ∧
            c'.recvConnect.queue = []) ↔ ∀ r ∈ c.recvConnect.queue, c.unspecified r = false))) := by
  have h := run_accounted hrun
  refine ⟨h, h.told.1, h.told.2, fun hp => ⟨fun created c' hc => ⟨request_adds hp hc, ?_⟩, ?_⟩⟩
  · intro r hr
    rw [step, if_pos (possible_request hp created)] at hc
    exact h.request_frame hp hc hr
  · intro hfits answers hlen
    obtain ⟨hchecks, hclient, -⟩ := run_keepAlive hrun
    exact requests_return h hp (by rwa [hchecks, hclient]) hlen

/-- Four requests: a good one, one with a null byte in the name, one picoquic refuses, and one
that is still in the queue. -/
def fourRequests : List Event := [.application (.newConnection ⟨.v4 1, 443⟩ "server"),
  .application (.newConnection ⟨.v4 1, 443⟩ "ser\x00ver"),
  .application (.newConnection ⟨.v6 1, 443⟩ "server"),
  .application (.newConnection ⟨.v4 2, 443⟩ "server"),
  .poll, .contexts, .request true, .request true, .request false]

theorem connect_requests_fail_alone_of_four_requests :
    ∃ c, (new (.default 1536)).run fourRequests = some c ∧ c.context.outgoing = [0] ∧
      c.Accounted [(0, true), (1, true), (2, false)] ∧
      c.pollFuture 1 = some (.error ErrorKind.internalError) ∧
      c.pollFuture 2 = some (.error ErrorKind.internalError) ∧ c.pollFuture 3 = none ∧
      ∃ c', c.run [.request true, .request true] = some c' ∧ c'.phase = .incoming := by
  have hfacts : ((new (.default 1536)).run fourRequests).map (fun c =>
      (c.phase, c.recvConnect.queue, c.context.outgoing, c.unspecified 3,
        c.succeeds (1, true), c.succeeds (2, false))) =
      some (.requests, [3], [0], false, false, false) := rfl
  have hattempts : attemptsOf (.default 1536) fourRequests =
      [(0, true), (1, true), (2, false)] := rfl
  obtain ⟨c, hrun, hc⟩ := Option.map_eq_some_iff.mp hfacts
  simp only [Prod.mk.injEq] at hc
  obtain ⟨hp, hqueue, hout, hgood, hnull, hrefused⟩ := hc
  obtain ⟨haccounted, hfailed, hwaiting, hround⟩ := connect_requests_fail_alone hrun
  rw [hattempts] at haccounted hfailed
  refine ⟨c, hrun, hout, haccounted, hfailed (1, true) (by simp) hnull,
    hfailed (2, false) (by simp) hrefused, hwaiting (by simp [hp]) 3 (by simp [hqueue]), ?_⟩
  have hfits : KeepAliveFits true none := by decide
  obtain ⟨c', hc', hp', -⟩ := ((hround hp).2 hfits [true, true] (by rw [hqueue]; rfl)).mpr (by
    rw [hqueue]
    exact fun r hr => List.mem_singleton.mp hr ▸ hgood)
  exact ⟨c', hc', hp'⟩

/-- **A request for an address that is unspecified ends the event loop in a panic**, and with
it a connection that was made before, and a request that is good. -/
theorem unspecified_address_panics :
    let es : List Event := [.application (.newConnection ⟨.v4 1, 443⟩ "server"),
      .application (.newConnection ⟨.v4 0, 443⟩ "server"),
      .application (.newConnection ⟨.v4 2, 443⟩ "server"), .poll, .contexts, .request true]
    (∃ c, (new (.default 1536)).run es = some c ∧ c.context.outgoing = [0] ∧
        c.recvConnect.queue = [1, 2]) ∧
      ∀ created, (new (.default 1536)).run (es ++ [.request created]) = none := by
  refine ⟨⟨_, rfl, rfl, rfl⟩, fun created => ?_⟩
  cases created <;> rfl

end ContextInner

end Endpoint

end PicoquicRs
