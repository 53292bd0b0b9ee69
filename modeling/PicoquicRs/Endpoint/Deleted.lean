import PicoquicRs.Endpoint.Loop
import PicoquicRs.Endpoint.Steps

/-!
# The pointer of a deleted connection

`send_connection_packets` deletes a connection as soon as it finds it disconnected, and
the context keeps the pointer. Every call with the pointer is made by the context, or by
a stream of it, when it is polled, called back or dropped; a context that is not in
`CContext::connections` any more is polled no more, and picoquic does not call back for
a connection it has deleted. So the pointer is not used again where the context had left
the vector before (`PicoquicRs.Endpoint.ContextInner.deleted_is_not_used`).
-/

namespace PicoquicRs

namespace Endpoint

namespace Cnx

variable {c c' : Cnx}

/-- **A deleted connection is not used**: no call was made since, and its context is in
the vector no more. -/
def Unreached (c : Cnx) : Prop :=
  ∀ calls, c.deleted = some calls → c.calls = calls ∧ c.listed = false

/-- A connection that is not deleted. -/
theorem Unreached.of_none (h : c.deleted = none) : c.Unreached := by
  simp [Unreached, h]

theorem retain_deleted (h : c.retain = some c') : c'.deleted = c.deleted := by
  rcases retain_spec h with ⟨-, rfl⟩ | ⟨a, ctx, -, -, -, ⟨-, rfl⟩ | ⟨-, h⟩⟩
  · rfl
  · rfl
  · exact (release_frame h).2.2

namespace Unreached

/-- The connection that is deleted now. -/
theorem delete (h : c.Unreached) (hl : c.deleted = none → c.listed = false)
    (hc : c.step .delete = some c') : c'.Unreached := by
  obtain rfl := Option.some.inj hc
  split
  · rename_i hnone
    rintro calls hcalls
    exact ⟨Option.some.inj hcalls, hl (Option.isNone_iff_eq_none.mp hnone)⟩
  · exact h

/-- **The application does not reach picoquic.** -/
theorem application (h : c.Unreached) {e : Connections.Event}
    (hc : c.step (.application e) = some c') : c'.Unreached := by
  simp only [step] at hc
  split at hc
  · obtain rfl := Option.some.inj hc
    exact h
  · rename_i hat
    obtain ⟨ends, hends, hc⟩ := Option.bind_eq_some_iff.mp hc
    obtain rfl := Option.some.inj hc
    rw [Connections.Ends.step, if_neg hat] at hends
    have hq := Connections.Ends.stepApplication_quiet hends
    intro calls hcalls
    obtain ⟨hc, hl⟩ := h calls hcalls
    refine ⟨?_, hl⟩
    rw [← hc]
    exact congrArg₂ Calls.mk hq.calls hq.streamCalls

/-- **The event loop and picoquic do not reach a deleted connection.** -/
theorem step (h : c.Unreached) {e : Event}
    (hdelete : e = .delete → c.deleted = none → c.listed = false)
    (hc : c.step e = some c') : c'.Unreached := by
  cases e with
  | delete => exact h.delete (hdelete rfl) hc
  | application ae => exact h.application hc
  | retain =>
    cases hd : c.deleted with
    | none => exact .of_none ((retain_deleted hc).trans hd)
    | some calls =>
      rw [Cnx.step, retain, (h calls hd).2] at hc
      obtain rfl := Option.some.inj hc
      exact h
  | callback cb =>
    simp only [Cnx.step] at hc
    split at hc
    · rename_i hlive
      rw [Bool.and_eq_true, Option.isNone_iff_eq_none] at hlive
      exact .of_none ((connectionCallback_frame hc).2.trans hlive.2)
    · obtain rfl := Option.some.inj hc
      exact h
  | disconnect =>
    obtain rfl := Option.some.inj hc
    split <;> exact h

end Unreached

end Cnx

namespace ContextInner

variable (c : ContextInner)

/-- **A connection is deleted after its context has left the vector.** -/
def deletesUnlisted (e : Event) : Bool :=
  !e.possible c.phase || match e with
    | .due (.cnx k) => c.context.cnxs[k]?.all fun cnx => !cnx.disconnected || !cnx.listed
    | _ => true

/-- **What picoquic keeps to.** When a call of it returns, every connection that is
disconnected had its close callback. -/
def picoquicRules : Event → Bool
  | .incomingPacketReturns .. | .packetPrepared .. =>
    c.context.cnxs.all fun cnx => !cnx.disconnected || !cnx.owned
  | _ => true

variable {c}

/-- **Every step leaves the deleted connections alone.** -/
theorem step_unreached {c' : ContextInner} {e : Event} (h : ∀ cnx ∈ c.context.cnxs, cnx.Unreached)
    (hok : c.deletesUnlisted e = true) (hc : c.step e = some c') :
    ∀ cnx ∈ c'.context.cnxs, cnx.Unreached := by
  have hnew : ∀ cb (cnx : Cnx), (Cnx.new false).connectionCallback cb = some cnx →
      cnx.enlist.Unreached := fun cb cnx hcnx => .of_none (Cnx.connectionCallback_frame hcnx).2
  have happ : ∀ (cnx cnx' : Cnx) ae, cnx.Unreached → cnx.step (.application ae) = some cnx' →
      cnx'.Unreached := fun cnx cnx' ae h hstep => h.application hstep
  rcases step_context hc with (hsame | ⟨ce, hce, hstep⟩) | ⟨k, cnx, rfl, hpos, hk, hd, hstep⟩
  · rw [hsame]
    exact h
  · refine CContext.step_rule h (fun k cnx cnx' e _ hon h hstep => ?_) happ hnew
      (.of_none rfl) hstep
    refine h.step (fun he => ?_) hstep
    subst he
    cases ce <;> simp_all [CContext.Event.on, CContext.Event.isDelete]
  · refine CContext.step_rule h (fun k' cnx₁ cnx₂ e hk' hon h hstep => ?_) happ hnew (.of_none rfl)
      hstep
    refine h.step (fun _ _ => ?_) hstep
    simp only [CContext.Event.on, Option.ite_none_right_eq_some] at hon
    obtain ⟨rfl, -⟩ := hon
    obtain rfl := Option.some.inj (hk.symm.trans hk')
    simpa [deletesUnlisted, hpos, hk, hd] using hok

/-- **The pointer of a deleted connection is not used.** In every run in which each
connection that is found disconnected has left `CContext::connections` before, no call
into picoquic is made with the pointer of a connection after it was deleted, neither by
its context nor by a stream of it. -/
theorem deleted_is_not_used {setup : Setup} {es : List Event} {c : ContextInner} {cnx : Cnx}
    {calls : Calls}
    (hunlisted : Trace.Obeys step (fun c e => c.deletesUnlisted e = true) (new setup) es)
    (hrun : (new setup).run es = some c) (hcnx : cnx ∈ c.context.cnxs)
    (hdeleted : cnx.deleted = some calls) : cnx.calls = calls := by
  have h := Trace.run_preserves (P := fun c : ContextInner => ∀ cnx ∈ c.context.cnxs, cnx.Unreached)
    (fun _ _ _ h hok hstep => step_unreached h hok hstep)
    (by simp [new, CContext.new]) hunlisted hrun
  exact (h cnx hcnx calls hdeleted).1

/-- A connection that is closed in one iteration, and deleted in the next one. -/
theorem deleted_is_not_used_in_the_next_iteration : ∃ c cnx calls,
    (new (.default 4)).run [.poll, .contexts, .request true, .receive (.datagram [1]),
      .quic (.incoming false (.other (.stream 4 (.data [1] .other)))),
      .quic (.callback 0 (.close ⟨0, 0, fun _ => false⟩)), .incomingPacketReturns [1] [],
      .receive .notReady, .stateless .sent, .flush .sent, .due .none, .sleep .none, .contexts,
      .request true, .receive (.datagram [2]), .quic (.disconnect 0),
      .incomingPacketReturns [2] [], .receive .notReady, .stateless .sent, .flush .sent,
      .due (.cnx 0), .sleep .none, .contexts] = some c ∧
    c.context.cnxs = [cnx] ∧ cnx.deleted = some calls ∧ cnx.calls = calls :=
  ⟨_, _, _, rfl, rfl, rfl, @deleted_is_not_used (.default 4)
    [.poll, .contexts, .request true, .receive (.datagram [1]),
      .quic (.incoming false (.other (.stream 4 (.data [1] .other)))),
      .quic (.callback 0 (.close ⟨0, 0, fun _ => false⟩)), .incomingPacketReturns [1] [],
      .receive .notReady, .stateless .sent, .flush .sent, .due .none, .sleep .none, .contexts,
      .request true, .receive (.datagram [2]), .quic (.disconnect 0),
      .incomingPacketReturns [2] [], .receive .notReady, .stateless .sent, .flush .sent,
      .due (.cnx 0), .sleep .none, .contexts] _ _ _ (by decide) rfl List.mem_cons_self rfl⟩

/-- **A context that outlives its connection.** The connection is closed and disconnected
by a datagram, and deleted in the same iteration. The context is dropped at the top of the
next one, and clears the callback of a connection that is gone. -/
theorem drop_uses_a_deleted_connection : ∃ es c cnx calls,
    (new (.default 4)).run es = some c ∧
    Trace.Obeys step (fun c e => c.picoquicRules e = true) (new (.default 4)) es ∧
    c.context.cnxs = [cnx] ∧ cnx.deleted = some calls ∧
    cnx.calls.context = calls.context ++ [.clearCallback] :=
  ⟨[.poll, .contexts, .request true, .receive (.datagram [1]),
      .quic (.incoming false (.other (.stream 4 (.data [1] .other)))),
      .incomingPacketReturns [1] [], .receive (.datagram [2]),
      .quic (.callback 0 (.close ⟨0, 0, fun _ => false⟩)), .quic (.disconnect 0),
      .incomingPacketReturns [2] [], .receive .notReady, .stateless .sent, .flush .sent,
      .due (.cnx 0), .sleep .none, .contexts], _, _, _, rfl, by decide, rfl, rfl, rfl⟩

end ContextInner

end Endpoint

end PicoquicRs
