import PicoquicRs.Connections.Steps
import PicoquicRs.Endpoint.Contexts

/-!
# What a step does to each connection

A step of `PicoquicRs.Endpoint.CContext` does to each connection at most one step of
`PicoquicRs.Endpoint.Cnx`, and makes at most one connection. What holds of a new
connection and survives these steps therefore holds of every connection of every run
(`PicoquicRs.Endpoint.CContext.step_rule`).

In particular every connection of an endpoint is in a state that a run of
`PicoquicRs.Connections.Ends` leads to (`PicoquicRs.Endpoint.CContext.run_sound`), so
that whatever holds of those runs holds of it.
-/

namespace PicoquicRs

namespace Endpoint

open Futures

open Time (Duration)

namespace Cnx

variable {c c' : Cnx}

/-! ### The last reference -/

/-- Dropping a reference does not touch the vector, and nothing of picoquic's but the
callback. -/
theorem release_frame (h : c.release = some c') : c'.listed = c.listed ∧ c'.givenUp = c.givenUp ∧
    c'.deleted = c.deleted := by
  rw [release] at h
  split at h
  · obtain ⟨ends, -, h⟩ := Option.bind_eq_some_iff.mp h
    exact Option.some.inj h ▸ ⟨rfl, rfl, rfl⟩
  · exact Option.some.inj h ▸ ⟨rfl, rfl, rfl⟩

/-- **A reference is dropped.** The context is freed with the last one, and then picoquic
calls back no more. -/
theorem release_spec (h : c.release = some c') (ha : c.freed = false) (hpos : 0 < c.strong) :
    c'.strong + 1 = c.strong ∧ (c'.freed = true ↔ c'.strong = 0) ∧
      (c'.registered = true → c'.freed = false) := by
  rw [release] at h
  split at h
  · rename_i hone
    obtain ⟨ends, hends, h⟩ := Option.bind_eq_some_iff.mp h
    obtain rfl := Option.some.inj h
    have halive : ends.alive = false := by
      rw [freed, Bool.not_eq_false'] at ha
      simp only [Connections.Ends.step, Connections.Ends.atContext, if_true, ha] at hends
      obtain ⟨ctx, -, hends⟩ := Option.bind_eq_some_iff.mp hends
      exact Option.some.inj hends ▸ rfl
    exact ⟨hone.symm, by simp [freed, halive], by simp⟩
  · obtain rfl := Option.some.inj h
    refine ⟨Nat.sub_add_cancel hpos, ?_, fun _ => ha⟩
    change c.freed = true ↔ c.strong - 1 = 0
    rw [ha]
    simp only [Bool.false_eq_true, false_iff]
    omega

/-- The context does not do anything that a reference less does not explain. -/
theorem release_ends (h : c.release = some c') : ∃ es, c.ends.run es = some c'.ends := by
  rw [release] at h
  split at h
  · obtain ⟨ends, hends, h⟩ := Option.bind_eq_some_iff.mp h
    obtain rfl := Option.some.inj h
    exact ⟨[.drop], Trace.run_cons_of_step hends⟩
  · obtain rfl := Option.some.inj h
    exact ⟨[], rfl⟩

/-! ### The two ends -/

theorem connectionCallback_frame {cb : Callback} (h : c.connectionCallback cb = some c') :
    c'.listed = c.listed ∧ c'.deleted = c.deleted := by
  cases cb with
  | close codes =>
    obtain ⟨ends, -, h⟩ := Option.bind_eq_some_iff.mp h
    obtain ⟨hl, -, hd⟩ := release_frame h
    exact ⟨hl, hd⟩
  | other cb =>
    obtain ⟨ends, -, h⟩ := Option.bind_eq_some_iff.mp h
    exact Option.some.inj h ▸ ⟨rfl, rfl⟩

/-- A callback is one event for the two ends, and perhaps the drop of the context. -/
theorem connectionCallback_ends {cb : Callback} (h : c.connectionCallback cb = some c') :
    ∃ es, c.ends.run es = some c'.ends := by
  cases cb with
  | close codes =>
    obtain ⟨ends, hends, h⟩ := Option.bind_eq_some_iff.mp h
    obtain ⟨es, hes⟩ := release_ends h
    exact ⟨.close codes :: es, (Trace.run_cons_of_step hends).trans hes⟩
  | other cb =>
    obtain ⟨ends, hends, h⟩ := Option.bind_eq_some_iff.mp h
    obtain rfl := Option.some.inj h
    exact ⟨[.callback cb], Trace.run_cons_of_step hends⟩

/-- What `retain` does to a context that is listed: it polls it, and drops the reference
of the vector if it was closed. -/
theorem retain_spec (h : c.retain = some c') :
    (c.listed = false ∧ c' = c) ∨
    ∃ a ctx, c.listed = true ∧ c.freed = false ∧ c.ends.ctx.poll = some (a, ctx) ∧
      (a = .notReady ∧ c' = { c with ends := { c.ends with ctx } } ∨
        a = .ready () ∧
          { c with ends := { c.ends with ctx }, listed := false }.release = some c') := by
  rw [retain] at h
  split at h
  · rename_i hl
    split at h
    · simp at h
    · rename_i hf
      obtain ⟨⟨a, ctx⟩, hpoll, h⟩ := Option.bind_eq_some_iff.mp h
      refine Or.inr ⟨a, ctx, hl, by simpa using hf, hpoll, ?_⟩
      cases a with
      | notReady => exact Or.inl ⟨rfl, (Option.some.inj h).symm⟩
      | ready u => exact Or.inr ⟨rfl, h⟩
  · rename_i hl
    exact Or.inl ⟨by simpa using hl, (Option.some.inj h).symm⟩

theorem retain_ends (h : c.retain = some c') : ∃ es, c.ends.run es = some c'.ends := by
  rcases retain_spec h with ⟨-, rfl⟩ | ⟨a, ctx, -, hf, hpoll, h⟩
  · exact ⟨[], rfl⟩
  · have halive : c.ends.alive = true := by simpa [freed] using hf
    have hstep : c.ends.step .poll = some { c.ends with ctx } := by
      simp [Connections.Ends.step, Connections.Ends.atContext, halive,
        Connections.Ends.stepContext, hpoll]
    obtain ⟨es, hes⟩ : ∃ es, ({ c.ends with ctx } : Ends).run es = some c'.ends := by
      rcases h with ⟨-, rfl⟩ | ⟨-, h⟩
      · exact ⟨[], rfl⟩
      · exact release_ends h
    exact ⟨.poll :: es, (Trace.run_cons_of_step hstep).trans hes⟩

/-- **A step of a connection is a run of its two ends.** -/
theorem step_ends {e : Event} (h : c.step e = some c') : ∃ es, c.ends.run es = some c'.ends := by
  cases e with
  | retain => exact retain_ends h
  | callback cb =>
    simp only [step] at h
    split at h
    · exact connectionCallback_ends h
    · obtain rfl := Option.some.inj h
      exact ⟨[], rfl⟩
  | disconnect =>
    obtain rfl := Option.some.inj h
    exact ⟨[], by split <;> rfl⟩
  | delete =>
    obtain rfl := Option.some.inj h
    exact ⟨[], by split <;> rfl⟩
  | application ae =>
    simp only [step] at h
    split at h
    · obtain rfl := Option.some.inj h
      exact ⟨[], rfl⟩
    · obtain ⟨ends, hends, h⟩ := Option.bind_eq_some_iff.mp h
      obtain rfl := Option.some.inj h
      exact ⟨[ae], Trace.run_cons_of_step hends⟩

end Cnx

namespace CContext

variable {c c' : CContext} {k : CnxRef} {cnx : Cnx} {checks : Bool} {interval : Option Duration}

/-- What a step means for the connection `k`. -/
def Event.on (k : CnxRef) : Event → Option Cnx.Event
  | .poll => some .retain
  | .callback k' cb => if k' = k then some (.callback cb) else none
  | .disconnect k' => if k' = k then some .disconnect else none
  | .delete k' => if k' = k then some .delete else none
  | _ => none

/-! ### The functions -/

/-- **One connection takes a step**, if there is one. -/
theorem atCnx_spec {ce : Cnx.Event} (h : c.atCnx k ce = some c') :
    (c.cnxs[k]? = none ∧ c' = c) ∨
    ∃ cnx cnx', c.cnxs[k]? = some cnx ∧ cnx.step ce = some cnx' ∧
      c' = { c with cnxs := c.cnxs.set k cnx' } := by
  rw [atCnx] at h
  split at h
  · rename_i cnx hk
    obtain ⟨cnx', hstep, h⟩ := Option.bind_eq_some_iff.mp h
    exact Or.inr ⟨cnx, cnx', hk, hstep, (Option.some.inj h).symm⟩
  · rename_i hk
    exact Or.inl ⟨hk, (Option.some.inj h).symm⟩

variable {P : Cnx → Prop} {Q : CnxRef → Cnx → Prop}

theorem atCnx_rule {ce : Cnx.Event} (h : ∀ k cnx, c.cnxs[k]? = some cnx → Q k cnx)
    (hstep : ∀ cnx cnx', c.cnxs[k]? = some cnx → Q k cnx → cnx.step ce = some cnx' → Q k cnx')
    (hc : c.atCnx k ce = some c') : ∀ k cnx, c'.cnxs[k]? = some cnx → Q k cnx := by
  rcases atCnx_spec hc with ⟨-, rfl⟩ | ⟨cnx, cnx', hk, hs, rfl⟩
  · exact h
  · intro k' x hx
    rcases eq_or_ne k k' with rfl | hne
    · rw [List.getElem?_set_self (List.getElem?_eq_some_iff.mp hk).choose] at hx
      obtain rfl := Option.some.inj hx
      exact hstep cnx _ hk (h k cnx hk) hs
    · rw [List.getElem?_set_ne hne] at hx
      exact h k' x hx

theorem atCnxs_rule {ks : List CnxRef} {ce : Cnx.Event}
    (h : ∀ k cnx, c.cnxs[k]? = some cnx → Q k cnx)
    (hstep : ∀ k cnx cnx', Q k cnx → cnx.step ce = some cnx' → Q k cnx')
    (hc : ks.foldlM (atCnx · · ce) c = some c') : ∀ k cnx, c'.cnxs[k]? = some cnx → Q k cnx := by
  induction ks generalizing c with
  | nil =>
    obtain rfl : c = c' := by simpa using hc
    exact h
  | cons k ks ih =>
    rw [List.foldlM_cons] at hc
    obtain ⟨c₁, hc₁, hc⟩ := Option.bind_eq_some_iff.mp hc
    exact ih (atCnx_rule h (fun cnx cnx' _ => hstep k cnx cnx') hc₁) hc

theorem push_rule (h : ∀ k cnx, c.cnxs[k]? = some cnx → Q k cnx)
    (hnew : Q c.cnxs.length cnx.enlist) : ∀ k x, (c.push cnx).cnxs[k]? = some x → Q k x := by
  intro k x hx
  rcases Nat.lt_trichotomy k c.cnxs.length with hlt | rfl | hgt
  · rw [push, List.getElem?_append_left hlt] at hx
    exact h k x hx
  · rw [push, List.getElem?_concat_length] at hx
    obtain rfl := Option.some.inj hx
    exact hnew
  · have hlen : (c.push cnx).cnxs.length ≤ k := by
      rw [push, List.length_append, List.length_singleton]
      exact hgt
    rw [List.getElem?_eq_none hlen] at hx
    exact absurd hx (by simp)

/-- What survives an event of one connection survives that of many. -/
theorem atCnxs_keeps {γ : Type*} {g : CContext → γ} {ks : List CnxRef} {ce : Cnx.Event}
    (hg : ∀ {c c' k}, atCnx c k ce = some c' → g c' = g c)
    (h : ks.foldlM (atCnx · · ce) c = some c') : g c' = g c := by
  induction ks generalizing c with
  | nil =>
    obtain rfl : c = c' := by simpa using h
    rfl
  | cons k ks ih =>
    rw [List.foldlM_cons] at h
    obtain ⟨c₁, hc₁, h⟩ := Option.bind_eq_some_iff.mp h
    exact (ih h).trans (hg hc₁)

theorem atCnx_length {ce : Cnx.Event} (h : c.atCnx k ce = some c') :
    c'.cnxs.length = c.cnxs.length := by
  rcases atCnx_spec h with ⟨-, rfl⟩ | ⟨cnx, cnx', -, -, rfl⟩
  · rfl
  · exact List.length_set

theorem atCnxs_length {ks : List CnxRef} {ce : Cnx.Event}
    (h : ks.foldlM (atCnx · · ce) c = some c') : c'.cnxs.length = c.cnxs.length :=
  atCnxs_keeps (g := fun c => c.cnxs.length) atCnx_length h

/-- **An incoming connection** is turned away, or it is put into the vector; its `Connection` is
put into the queue, or dropped if nobody listens. -/
theorem newConnectionCallback_cases {isGoingToClose : Bool} {cb : Callback}
    (h : c.newConnectionCallback isGoingToClose cb = some c') :
    c' = c ∨ ∃ cnx, (Cnx.new false).connectionCallback cb = some cnx ∧
      (c.sendCon.isOpen = true ∧
          c' = { c.push cnx with sendCon := c.sendCon.push c.cnxs.length } ∨
        c.sendCon.isOpen = false ∧
          (c.push cnx).atCnx c.cnxs.length (.application .dropConnection) = some c') := by
  rw [newConnectionCallback] at h
  split at h
  · exact Or.inl (Option.some.inj h).symm
  · obtain ⟨-, -, h⟩ := Option.bind_eq_some_iff.mp h
    obtain ⟨cnx, hcnx, h⟩ := Option.bind_eq_some_iff.mp h
    refine Or.inr ⟨cnx, hcnx, ?_⟩
    cases hopen : c.sendCon.isOpen with
    | true =>
      simp only [Chan.unboundedSend_of_open hopen] at h
      exact Or.inl ⟨rfl, (Option.some.inj h).symm⟩
    | false =>
      simp only [Chan.unboundedSend_of_closed hopen] at h
      exact Or.inr ⟨rfl, h⟩

/-- **An outgoing connection** is put into the vector, and dropped with its future if nobody
waits. -/
theorem create_cases {keepAliveInterval : Option Duration} {waiting : Bool}
    (h : c.create keepAliveInterval waiting = some c') :
    waiting = true ∧ c' = c.push (Cnx.new true) ∨
      waiting = false ∧
        (c.push (Cnx.new true)).atCnx c.cnxs.length (.application .dropCreated) = some c' := by
  obtain ⟨-, -, h⟩ := Option.bind_eq_some_iff.mp h
  cases waiting with
  | true => exact Or.inl ⟨rfl, (Option.some.inj h).symm⟩
  | false => exact Or.inr ⟨rfl, h⟩

/-- **A connection is never forgotten.** -/
theorem step_length {e : Event} (h : c.step e = some c') : c.cnxs.length ≤ c'.cnxs.length := by
  have hpush : ∀ cnx, c.cnxs.length ≤ (c.push cnx).cnxs.length := fun cnx => by
    rw [push, List.length_append]
    exact Nat.le_add_right _ _
  cases e with
  | poll =>
    obtain ⟨cnxs, hc, h⟩ := Option.bind_eq_some_iff.mp h
    obtain rfl := Option.some.inj h
    exact (Each.mapM_length hc).ge
  | callback k cb => exact (atCnx_length h).ge
  | disconnect k => exact (atCnx_length h).ge
  | delete k => exact (atCnx_length h).ge
  | incoming isGoingToClose cb =>
    obtain rfl | ⟨cnx, -, ⟨-, rfl⟩ | ⟨-, h⟩⟩ := newConnectionCallback_cases h
    · exact Nat.le_refl _
    · exact hpush cnx
    · exact (hpush cnx).trans (atCnx_length h).ge
  | outgoing keepAliveInterval waiting =>
    obtain ⟨-, rfl⟩ | ⟨-, h⟩ := create_cases h
    · exact hpush _
    · exact (hpush _).trans (atCnx_length h).ge
  | accept =>
    obtain rfl := Option.some.inj h
    exact Nat.le_refl _
  | dropIncoming => exact (atCnxs_length (c := { c with sendCon := c.sendCon.dropReceiver }) h).ge
  | application k ae =>
    simp only [step] at h
    split at h
    · obtain rfl := Option.some.inj h
      exact Nat.le_refl _
    · exact (atCnx_length h).ge

/-- **How a connection is kept alive was settled at the start.** -/
theorem step_keepAlive {e : Event} (h : c.step e = some c') :
    c'.checks = c.checks ∧ c'.serverKeepAliveInterval = c.serverKeepAliveInterval := by
  have hcnx : ∀ {c c' : CContext} {k : CnxRef} {ce : Cnx.Event}, c.atCnx k ce = some c' →
      (c'.checks, c'.serverKeepAliveInterval) = (c.checks, c.serverKeepAliveInterval) := by
    intro c c' k ce h
    rcases atCnx_spec h with ⟨-, rfl⟩ | ⟨cnx, cnx', -, -, rfl⟩ <;> rfl
  rw [← Prod.mk_inj]
  cases e with
  | poll =>
    obtain ⟨cnxs, -, h⟩ := Option.bind_eq_some_iff.mp h
    obtain rfl := Option.some.inj h
    rfl
  | callback k cb => exact hcnx h
  | disconnect k => exact hcnx h
  | delete k => exact hcnx h
  | incoming isGoingToClose cb =>
    obtain rfl | ⟨cnx, -, ⟨-, rfl⟩ | ⟨-, h⟩⟩ := newConnectionCallback_cases h
    · rfl
    · rfl
    · exact hcnx (c := c.push cnx) h
  | outgoing keepAliveInterval waiting =>
    obtain ⟨-, rfl⟩ | ⟨-, h⟩ := create_cases h
    · rfl
    · exact hcnx (c := c.push (Cnx.new true)) h
  | accept =>
    obtain rfl := Option.some.inj h
    rfl
  | dropIncoming =>
    exact atCnxs_keeps (c := { c with sendCon := c.sendCon.dropReceiver })
      (g := fun c => (c.checks, c.serverKeepAliveInterval)) hcnx h
  | application k ae =>
    simp only [step] at h
    split at h
    · obtain rfl := Option.some.inj h
      rfl
    · exact hcnx h

/-! ### The rule -/

/-- **The rule for the steps.** What holds of every connection, wherever it is in the order of
creation, still does after a step, if the steps of a connection keep it and it holds of the
connection the step makes. -/
theorem step_rule_at {e : Event} (h : ∀ k cnx, c.cnxs[k]? = some cnx → Q k cnx)
    (hon : ∀ k cnx cnx' ce, c.cnxs[k]? = some cnx → e.on k = some ce → Q k cnx →
      cnx.step ce = some cnx' → Q k cnx')
    (happ : ∀ k cnx cnx' ae, Q k cnx → cnx.step (.application ae) = some cnx' → Q k cnx')
    (hin : ∀ cb cnx, (Cnx.new false).connectionCallback cb = some cnx →
      Q c.cnxs.length cnx.enlist)
    (hout : Q c.cnxs.length (Cnx.new true).enlist) (hstep : c.step e = some c') :
    ∀ k cnx, c'.cnxs[k]? = some cnx → Q k cnx := by
  cases e with
  | poll =>
    obtain ⟨cnxs, hc, hstep⟩ := Option.bind_eq_some_iff.mp hstep
    obtain rfl := Option.some.inj hstep
    intro k cnx' hk'
    obtain ⟨cnx, hk, hretain⟩ := Each.of_mapM_getElem? hc hk'
    exact hon k cnx cnx' _ hk rfl (h k cnx hk) hretain
  | callback k cb => exact atCnx_rule h (fun _ _ hk => hon k _ _ _ hk (if_pos rfl)) hstep
  | disconnect k => exact atCnx_rule h (fun _ _ hk => hon k _ _ _ hk (if_pos rfl)) hstep
  | delete k => exact atCnx_rule h (fun _ _ hk => hon k _ _ _ hk (if_pos rfl)) hstep
  | incoming isGoingToClose cb =>
    obtain rfl | ⟨cnx, hcnx, hcase⟩ := newConnectionCallback_cases hstep
    · exact h
    · have hpush := push_rule (c := c) h (hin cb cnx hcnx)
      obtain ⟨-, rfl⟩ | ⟨-, hstep⟩ := hcase
      · exact hpush
      · exact atCnx_rule hpush (fun _ _ _ => happ _ _ _ _) hstep
  | outgoing keepAliveInterval waiting =>
    have hpush := push_rule (c := c) h hout
    obtain ⟨-, rfl⟩ | ⟨-, hstep⟩ := create_cases hstep
    · exact hpush
    · exact atCnx_rule hpush (fun _ _ _ => happ _ _ _ _) hstep
  | accept =>
    obtain rfl := Option.some.inj hstep
    exact h
  | dropIncoming =>
    exact atCnxs_rule (c := { c with sendCon := c.sendCon.dropReceiver }) h (happ · · · _) hstep
  | application k ae =>
    simp only [step] at hstep
    split at hstep
    · obtain rfl := Option.some.inj hstep
      exact h
    · exact atCnx_rule h (fun _ _ _ => happ _ _ _ _) hstep

/-- The rule, for what holds wherever the connection is. -/
theorem step_rule {e : Event} (h : ∀ cnx ∈ c.cnxs, P cnx)
    (hon : ∀ k cnx cnx' ce, c.cnxs[k]? = some cnx → e.on k = some ce → P cnx →
      cnx.step ce = some cnx' → P cnx')
    (happ : ∀ cnx cnx' ae, P cnx → cnx.step (.application ae) = some cnx' → P cnx')
    (hin : ∀ cb cnx, (Cnx.new false).connectionCallback cb = some cnx →
      P cnx.enlist)
    (hout : P (Cnx.new true).enlist) (hstep : c.step e = some c') :
    ∀ cnx ∈ c'.cnxs, P cnx := by
  intro cnx hcnx
  obtain ⟨k, hk⟩ := List.mem_iff_getElem?.mp hcnx
  exact step_rule_at (Q := fun _ => P) (fun _ _ hk => h _ (List.mem_of_getElem? hk)) hon
    (fun _ => happ) hin hout hstep k cnx hk

/-- **The rule for the runs.** -/
theorem run_rule {ok : CContext → Event → Prop} {es : List Event}
    (hon : ∀ c e k cnx cnx' ce, ok c e → c.cnxs[k]? = some cnx → e.on k = some ce → P cnx →
      cnx.step ce = some cnx' → P cnx')
    (happ : ∀ cnx cnx' ae, P cnx → cnx.step (.application ae) = some cnx' → P cnx')
    (hin : ∀ cb cnx, (Cnx.new false).connectionCallback cb = some cnx →
      P cnx.enlist)
    (hout : P (Cnx.new true).enlist)
    (hok : Trace.Obeys step ok (new checks interval) es)
    (hrun : (new checks interval).run es = some c) :
    ∀ cnx ∈ c.cnxs, P cnx :=
  Trace.run_preserves (P := fun c : CContext => ∀ cnx ∈ c.cnxs, P cnx)
    (fun c e _ h hok hstep => step_rule h (fun k cnx cnx' ce => hon c e k cnx cnx' ce hok)
      happ hin hout hstep) (by simp [new]) hok hrun

/-- **Every connection of an endpoint is in a state that a run of its two ends leads
to.** -/
theorem run_sound {es : List Event} (hrun : (new checks interval).run es = some c) :
    ∀ cnx ∈ c.cnxs, ∃ isClient es, (Connections.new isClient).run es = some cnx.ends := by
  have hsnoc : ∀ (cnx cnx' : Cnx),
      (∃ isClient es, (Connections.new isClient).run es = some cnx.ends) →
      (∃ es, cnx.ends.run es = some cnx'.ends) →
      ∃ isClient es, (Connections.new isClient).run es = some cnx'.ends := by
    rintro cnx cnx' ⟨isClient, es, hes⟩ ⟨es', hes'⟩
    refine ⟨isClient, es ++ es', ?_⟩
    simp only [Connections.Ends.run] at hes hes' ⊢
    rw [Trace.run_append, hes, Option.bind_some, hes']
  have hfree : Trace.Obeys step (fun _ _ => True) (new checks interval) es :=
    Trace.obeys_of_forall fun _ _ _ => trivial
  refine run_rule (fun _ _ _ cnx cnx' _ _ _ _ h hstep => hsnoc cnx cnx' h (Cnx.step_ends hstep))
    (fun cnx cnx' _ h hstep => hsnoc cnx cnx' h (Cnx.step_ends hstep)) (fun cb cnx h => ?_)
    ⟨true, [], rfl⟩ hfree hrun
  exact ⟨false, Cnx.connectionCallback_ends h⟩

end CContext

end Endpoint

end PicoquicRs
