import PicoquicRs.Connections.Stopped
import PicoquicRs.Endpoint.Handover
import PicoquicRs.Endpoint.Total
import PicoquicRs.Endpoint.Wakeups

/-!
# When the context of a connection is freed

The vector of the event loop keeps a context until it polls it and finds it closed; picoquic keeps
its reference until it calls back with a close. What is not closed is thus held by both, and as a
close of picoquic closes the context as well, the next poll of the vector frees what picoquic has
closed before, and nothing else
(`PicoquicRs.Endpoint.ContextInner.contexts_are_released`): no context is freed while somebody has
it, and none is kept when nobody will use it any more. As a context that is freed tells everybody,
nobody waits for a connection for longer than one iteration after picoquic has closed it
(`PicoquicRs.Endpoint.ContextInner.closes_reach_everybody`).
-/

namespace PicoquicRs

namespace Endpoint

open Futures

/-! ### One connection -/

namespace Cnx

variable {c c' : Cnx}

/-- **Both holders have the context**, as long as the connection is not closed. -/
def Settled (c : Cnx) : Prop :=
  c.ends.ctx.closed = false → c.listed = true ∧ c.owned = true

/-- What picoquic gives up, it closes. -/
theorem connectionCallback_givenUp {cb : Callback} (halive : c.freed = false)
    (h : c.connectionCallback cb = some c') (hopen : c'.ends.ctx.closed = false) :
    c'.givenUp = c.givenUp := by
  cases cb with
  | close codes =>
    obtain ⟨ends, hends, hrel⟩ := Option.bind_eq_some_iff.mp h
    have hclosed : ends.ctx.closed = true := by
      rw [freed, Bool.not_eq_false'] at halive
      simp only [Connections.Ends.step, Connections.Ends.atContext, if_true, halive] at hends
      obtain ⟨ctx, hctx, hends⟩ := Option.bind_eq_some_iff.mp hends
      obtain rfl := Option.some.inj hends
      obtain ⟨c₁, -, hctx⟩ := Option.bind_eq_some_iff.mp hctx
      obtain ⟨streams, rfl, -⟩ := Connections.Context.close_spec hctx
      rfl
    obtain ⟨hopen', -⟩ := release_keeps hrel hopen
    exact absurd (hclosed.symm.trans hopen') (by simp)
  | other cb =>
    obtain ⟨ends, -, h⟩ := Option.bind_eq_some_iff.mp h
    obtain rfl := Option.some.inj h
    rfl

/-- A new connection is held by both, and so is one that came in. -/
theorem new_settled (isClient : Bool) : (new isClient).enlist.Settled := fun _ => ⟨rfl, rfl⟩

theorem incoming_settled {cb : Callback} (h : (new false).connectionCallback cb = some c) :
    c.enlist.Settled := by
  intro hopen
  have hgiven := connectionCallback_givenUp rfl h hopen
  refine ⟨rfl, ?_⟩
  change (c.givenUp == 0) = true
  rw [hgiven]
  rfl

namespace Settled

/-- Whatever is not a poll. -/
theorem keeps (h : c.Settled) (hkeeps : Keeps c c')
    (hgiven : c'.ends.ctx.closed = false → c'.givenUp = c.givenUp) : c'.Settled := by
  intro hopen
  obtain ⟨hopen₀, hlisted, -⟩ := hkeeps hopen
  obtain ⟨hl, ho⟩ := h hopen₀
  refine ⟨hlisted.trans hl, ?_⟩
  rw [owned, hgiven hopen]
  exact ho

/-- **A poll drops what is closed.** -/
theorem retain (h : c.Settled) (hc : c.retain = some c') :
    c'.Settled ∧ (c.ends.ctx.closed = true → c'.listed = false) := by
  rcases retain_spec hc with ⟨hlisted, rfl⟩ | ⟨a, ctx, hlisted, -, hpoll, hcase⟩
  · exact ⟨h, fun _ => hlisted⟩
  · rcases hcase with ⟨rfl, rfl⟩ | ⟨rfl, hrel⟩
    · refine ⟨fun hopen => ?_, fun hclosed => ?_⟩
      · exact ⟨hlisted, (h (Connections.Context.poll_open hpoll hopen).1).2⟩
      · rw [Connections.Context.poll, if_pos hclosed] at hpoll
        simp at hpoll
    · refine ⟨fun hopen => ?_, fun _ => (release_frame hrel).1⟩
      -- only a closed context is ready
      obtain ⟨hopen₁, -⟩ := release_keeps hrel hopen
      exact absurd (Connections.Context.poll_open hpoll hopen₁).2 (by simp)

/-- **Every step leaves it to both**, or closes the connection. -/
theorem step (h : c.Settled) {e : Event}
    (hreg : ∀ cb, e = .callback cb → c.registered = true → c.freed = false)
    (hc : c.step e = some c') : c'.Settled := by
  cases e with
  | retain => exact (h.retain hc).1
  | callback cb =>
    refine h.keeps (step_keeps (by simp) hc) fun hopen => ?_
    simp only [Cnx.step] at hc
    split at hc
    · rename_i hcan
      rw [Bool.and_eq_true] at hcan
      exact connectionCallback_givenUp (hreg cb rfl hcan.1) hc hopen
    · obtain rfl := Option.some.inj hc
      rfl
  | disconnect | delete =>
    refine h.keeps (step_keeps (by simp) hc) fun _ => ?_
    obtain rfl := Option.some.inj hc
    split <;> rfl
  | application ae =>
    refine h.keeps (step_keeps (by simp) hc) fun _ => ?_
    simp only [Cnx.step] at hc
    split at hc
    · obtain rfl := Option.some.inj hc
      rfl
    · obtain ⟨ends, -, hc⟩ := Option.bind_eq_some_iff.mp hc
      obtain rfl := Option.some.inj hc
      rfl

end Settled

/-- A poll does not touch the reference of picoquic. -/
theorem retain_owned (hc : c.retain = some c') : c'.owned = c.owned := by
  rcases retain_spec hc with ⟨-, rfl⟩ | ⟨a, ctx, -, -, -, ⟨-, rfl⟩ | ⟨-, hrel⟩⟩
  · rfl
  · rfl
  · rw [owned, (release_frame hrel).2.1]
    rfl

/-- **A poll leaves no context in the vector that picoquic has closed.** -/
theorem Settled.retain_listed (h : c.Settled) (hc : c.retain = some c')
    (howned : c'.owned = false) :
    c'.listed = false := by
  -- what picoquic has closed was closed before the poll
  rw [retain_owned hc] at howned
  refine (h.retain hc).2 (Bool.eq_true_of_not_eq_false fun hopen => ?_)
  exact absurd ((h hopen).2.symm.trans howned) (by simp)

end Cnx

/-! ### The loop -/

/-- Whatever a step does to the connections. -/
theorem CContext.step_settled {c c' : CContext} {e : Event}
    (hreg : ∀ cnx ∈ c.cnxs, cnx.registered = true → cnx.freed = false)
    (h : ∀ cnx ∈ c.cnxs, cnx.Settled) (hstep : c.step e = some c') :
    ∀ cnx ∈ c'.cnxs, cnx.Settled :=
  step_rule h
    (fun _ cnx _ _ hk _ hcnx => hcnx.step fun _ _ => hreg cnx (List.mem_of_getElem? hk))
    (fun _ _ _ hcnx => hcnx.step (by simp)) (fun _ _ => Cnx.incoming_settled)
    (Cnx.new_settled true) hstep

namespace ContextInner

variable {c c' : ContextInner} {setup : Setup} {es : List Event} {k : CnxRef} {cnx' : Cnx}

/-- At the top of the loop each connection is polled. -/
theorem step_contexts_retain (hp : c.phase = .contexts) (hstep : c.step .contexts = some c')
    (hk' : c'.context.cnxs[k]? = some cnx') :
    ∃ cnx, c.context.cnxs[k]? = some cnx ∧ cnx.retain = some cnx' := by
  rw [step, if_pos (by rw [hp]; rfl)] at hstep
  obtain ⟨context, hcontext, hstep⟩ := Option.bind_eq_some_iff.mp hstep
  obtain ⟨cnxs, hcnxs, hcontext⟩ := Option.bind_eq_some_iff.mp hcontext
  obtain rfl := Option.some.inj hcontext
  have hk₁ : cnxs[k]? = some cnx' := by
    obtain rfl := Option.some.inj hstep
    revert hk'
    split <;> exact id
  exact Each.of_mapM_getElem? hcnxs hk₁

theorem run_settled (hok : Trace.Obeys step Allows (new setup) es)
    (hrun : (new setup).run es = some c) :
    c.Safe ∧ ∀ cnx ∈ c.context.cnxs, cnx.Settled := by
  refine Trace.run_preserves (P := fun c : ContextInner =>
    c.Safe ∧ ∀ cnx ∈ c.context.cnxs, cnx.Settled) ?_
    ⟨new_safe, fun _ hcnx => absurd hcnx List.not_mem_nil⟩ hok hrun
  rintro c e c' ⟨hsafe, h⟩ hallowed hstep
  obtain ⟨c₁, hc₁, hsafe'⟩ := hsafe.step hallowed (keepsAlive_of_step hstep)
  obtain rfl := Option.some.inj (hstep.symm.trans hc₁)
  refine ⟨hsafe', ?_⟩
  rcases (step_hands hstep).1 with ⟨hsame, -⟩ | ⟨ce, hce, -⟩
  · rw [hsame]
    exact h
  · exact CContext.step_settled
      (fun cnx hcnx hreg => (hsafe.context cnx hcnx).freed_eq_false (Or.inr hreg)) h hce

/-- **A context is freed when nobody has it any more.** In every run in which picoquic and the
application keep to the rules, a context was freed exactly if it has left the vector and picoquic
has given up its reference, and both still hold the one of a connection that is not closed. When the
loop polls the contexts, those that were closed before leave the vector; so after that exactly those
are freed for which picoquic has called back with a close. -/
theorem contexts_are_released (hok : Trace.Obeys step Allows (new setup) es)
    (hrun : (new setup).run es = some c) :
    (∀ cnx ∈ c.context.cnxs, (cnx.freed = true ↔ cnx.listed = false ∧ cnx.owned = false) ∧
      (cnx.ends.ctx.closed = false → cnx.listed = true ∧ cnx.owned = true)) ∧
    (c.phase = .contexts → ∀ c', c.step .contexts = some c' →
      ∀ (k : CnxRef) (cnx' : Cnx), c'.context.cnxs[k]? = some cnx' →
        (cnx'.freed = true ↔ cnx'.owned = false) ∧
        ∀ cnx : Cnx, c.context.cnxs[k]? = some cnx → cnx.ends.ctx.closed = true →
          cnx'.listed = false) := by
  obtain ⟨hsafe, hsettled⟩ := run_settled hok hrun
  refine ⟨fun cnx hcnx => ⟨(hsafe.context cnx hcnx).accounted.freed_eq, hsettled cnx hcnx⟩,
    fun hp c' hstep k cnx' hk' => ?_⟩
  obtain ⟨c₁, hc₁, hsafe'⟩ := hsafe.step (e := .contexts) trivial trivial
  obtain rfl := Option.some.inj (hstep.symm.trans hc₁)
  have hfreed := (hsafe'.context cnx' (List.mem_of_getElem? hk')).accounted.freed_eq
  obtain ⟨cnx, hk, hretain⟩ := step_contexts_retain hp hstep hk'
  have hcnx := hsettled cnx (List.mem_of_getElem? hk)
  refine ⟨hfreed.trans ⟨And.right, fun howned => ⟨hcnx.retain_listed hretain howned, howned⟩⟩,
    fun cnx₁ hk₁ => ?_⟩
  obtain rfl := Option.some.inj (hk.symm.trans hk₁)
  exact (hcnx.retain hretain).2

/-- A connection is closed by picoquic while another one goes on. -/
theorem contexts_are_released_of_connect_and_close : ∃ c c',
    (new (.default 4)).run connectAndClose.dropLast = some c ∧ c.phase = .contexts ∧
      c.step .contexts = some c' ∧
      ∀ (k : CnxRef) (cnx' : Cnx), c'.context.cnxs[k]? = some cnx' →
        (cnx'.freed = true ↔ cnx'.owned = false) := by
  have hfacts : ((new (.default 4)).run connectAndClose.dropLast).map ContextInner.phase =
      some .contexts := rfl
  obtain ⟨c, hrun, hp⟩ := Option.map_eq_some_iff.mp hfacts
  have hok : Trace.Obeys step Allows (new (.default 4)) connectAndClose.dropLast := by
    decide +kernel
  obtain ⟨c', hstep, -⟩ := (run_settled hok hrun).1.step (e := .contexts) trivial trivial
  exact ⟨c, c', hrun, hp, hstep, fun k cnx' hk' =>
    ((contexts_are_released hok hrun).2 hp c' hstep k cnx' hk').1⟩

/-- **A close reaches everybody within one iteration.** In every run in which picoquic and the
application keep to the rules, once the loop has polled the contexts nobody waits for a connection
that picoquic has called back for with a close before: not for a stream, not for a message, not for
the connection itself. -/
theorem closes_reach_everybody (hok : Trace.Obeys step Allows (new setup) es)
    (hrun : (new setup).run es = some c) (hp : c.phase = .contexts)
    (hstep : c.step .contexts = some c') :
    ∀ cnx' ∈ c'.context.cnxs, cnx'.owned = false → cnx'.ends.Over := by
  intro cnx' hcnx' howned
  obtain ⟨hsafe, hsettled⟩ := run_settled hok hrun
  obtain ⟨c₁, hc₁, hsafe'⟩ := hsafe.step (e := .contexts) trivial trivial
  obtain rfl := Option.some.inj (hstep.symm.trans hc₁)
  obtain ⟨k, hk'⟩ := List.mem_iff_getElem?.mp hcnx'
  obtain ⟨cnx, hk, hretain⟩ := step_contexts_retain hp hstep hk'
  have hlisted := (hsettled cnx (List.mem_of_getElem? hk)).retain_listed hretain howned
  have hfreed : cnx'.freed = true :=
    (hsafe'.context cnx' hcnx').accounted.freed_eq.mpr ⟨hlisted, howned⟩
  have hgone : cnx'.ends.alive = false := by rwa [Cnx.freed, Bool.not_eq_true'] at hfreed
  obtain ⟨es', hes'⟩ := ((run_handsOver hrun).step hstep).sound cnx' hcnx'
  exact Connections.Ends.over_of_dropped hes' hgone

/-- The application waits for a stream and for the connection when it is closed. -/
def requestAndClose : List Event := [.application (.newConnection ⟨.v4 1, 443⟩ "server"),
  .poll, .contexts, .request true, .request true, .receive (.datagram [0]),
  .quic (.callback 0 (.other .almostReady)), .application (.connection 0 .pollCreated),
  .application (.connection 0 (.newStream .bidirectional)),
  .quic (.callback 0 (.close ⟨0, 0, fun _ => false⟩)), .incomingPacketReturns [0] [],
  .receive .notReady, .stateless .sent, .flush .sent, .due .none, .sleep .none]

theorem closes_reach_everybody_of_request_and_close : ∃ c c' cnx',
    (new (.default 4)).run requestAndClose = some c ∧ c.step .contexts = some c' ∧
      c'.context.cnxs = [cnx'] ∧ cnx'.ends.ctx.answers.next = 1 ∧ cnx'.ends.connection = true ∧
      cnx'.ends.Over := by
  have hok : Trace.Obeys step Allows (new (.default 4)) requestAndClose := by decide +kernel
  have hover := @closes_reach_everybody _ _ (.default 4) requestAndClose hok rfl rfl rfl _
    List.mem_cons_self rfl
  exact ⟨_, _, _, rfl, rfl, rfl, rfl, rfl, hover⟩

end ContextInner

end Endpoint

end PicoquicRs
