import PicoquicRs.Connections.Places
import PicoquicRs.Endpoint.Connecting

/-!
# Who owns a connection

An incoming connection is put into the queue of `send_con`, where `Context::poll` takes it out;
an outgoing one is held back by its context until it is ready, and goes to whoever waits for
the `NewConnectionFuture`. Nobody else hands a `Connection` around, so in every state of every run
of the event loop it has exactly one owner
(`PicoquicRs.Endpoint.ContextInner.connections_have_one_owner`): the queue, its context, its
future, the application, or nobody any more. The incoming ones reach the application in the order
they were made.
-/

namespace PicoquicRs

namespace Endpoint

open Futures

open Time (Duration)

/-! ### One connection -/

namespace Cnx

variable {c c' : Cnx}

/-- What is at the event loop's end does not touch what the application holds. -/
theorem ends_connection {p p' : Ends} {e : Connections.Event}
    (he : Connections.Ends.atContext e = true) (h : p.step e = some p') :
    p'.connection = p.connection := by
  rw [Connections.Ends.step, if_pos he] at h
  split at h
  · cases e with
    | callback cb | close codes | drop =>
      obtain ⟨c, -, h⟩ := Option.bind_eq_some_iff.mp h
      exact Option.some.inj h ▸ rfl
    | poll =>
      obtain ⟨⟨r, c⟩, -, h⟩ := Option.bind_eq_some_iff.mp h
      exact Option.some.inj h ▸ rfl
    | _ => exact Option.some.inj h ▸ rfl
  · exact Option.some.inj h ▸ rfl

theorem release_connection (h : c.release = some c') :
    c'.ends.connection = c.ends.connection := by
  rw [release] at h
  split at h
  · obtain ⟨ends, hends, h⟩ := Option.bind_eq_some_iff.mp h
    obtain rfl := Option.some.inj h
    exact ends_connection rfl hends
  · obtain rfl := Option.some.inj h
    rfl

theorem connectionCallback_connection {cb : Callback} (h : c.connectionCallback cb = some c') :
    c'.ends.connection = c.ends.connection := by
  cases cb with
  | close codes =>
    obtain ⟨ends, hends, h⟩ := Option.bind_eq_some_iff.mp h
    exact (release_connection h).trans (ends_connection rfl hends)
  | other cb =>
    obtain ⟨ends, hends, h⟩ := Option.bind_eq_some_iff.mp h
    obtain rfl := Option.some.inj h
    exact ends_connection rfl hends

/-- **Only the application moves what it holds.** -/
theorem step_connection {e : Event} (he : ∀ ae, e ≠ .application ae) (h : c.step e = some c') :
    c'.ends.connection = c.ends.connection := by
  cases e with
  | retain =>
    rcases retain_spec h with ⟨-, rfl⟩ | ⟨a, ctx, -, -, -, ⟨-, rfl⟩ | ⟨-, hrel⟩⟩
    · rfl
    · rfl
    · exact (release_connection hrel).trans rfl
  | callback cb =>
    simp only [step] at h
    split at h
    · exact connectionCallback_connection h
    · obtain rfl := Option.some.inj h
      rfl
  | disconnect | delete =>
    obtain rfl := Option.some.inj h
    split <;> rfl
  | application ae => exact absurd rfl (he ae)

/-- A `Connection` that is dropped is gone. -/
theorem step_dropConnection (h : c.step (.application .dropConnection) = some c') :
    c'.ends.connection = false := by
  obtain ⟨ends, hends, h⟩ := Option.bind_eq_some_iff.mp h
  obtain rfl := Option.some.inj h
  simp only [Connections.Ends.step, Connections.Ends.atContext, Bool.false_eq_true, if_false,
    Connections.Ends.stepApplication] at hends
  split at hends
  · obtain ⟨ctx, -, hends⟩ := Option.bind_eq_some_iff.mp hends
    exact Option.some.inj hends ▸ rfl
  · rename_i hno
    obtain rfl := Option.some.inj hends
    simpa using hno

/-- A step goes on with the run of the two ends. -/
theorem run_step {p : Ends} {es : List Connections.Event} {e : Event}
    (hrun : p.run es = some c.ends) (h : c.step e = some c') :
    ∃ es', p.run es' = some c'.ends := by
  obtain ⟨es', hes'⟩ := step_ends h
  refine ⟨es ++ es', ?_⟩
  simp only [Connections.Ends.run] at hrun hes' ⊢
  rw [Trace.run_append, hrun, Option.bind_some, hes']

/-- **The two ends are in a state a run leads to.** -/
def Sound (c : Cnx) : Prop :=
  ∃ es, (Connections.new c.ends.ctx.isClient).run es = some c.ends

/-- A `Connection` is at one place. -/
theorem Sound.placed (h : c.Sound) : ∃ pl, c.ends.Placed pl ∧
    (if c.ends.ctx.isClient then .heldBack else .taken : Connections.Place).rank ≤ pl.rank := by
  obtain ⟨es, hrun⟩ := h
  exact (Connections.Ends.new_placed _).run hrun

/-- The `Connection` of an incoming connection does not come back to the application. -/
theorem Sound.connection_of_step (h : c.Sound) (hin : c.ends.ctx.isClient = false) {e : Event}
    (hstep : c.step e = some c') (hc : c'.ends.connection = true) : c.ends.connection = true := by
  obtain ⟨pl, hpl, hle⟩ := h.placed
  obtain ⟨es, hes⟩ := step_ends hstep
  obtain ⟨pl', hpl', hle'⟩ := hpl.run hes
  obtain rfl : pl' = .taken := hpl'.eq_of_isAt hc
  rw [hin] at hle
  have hpl₁ : pl = .taken := by
    cases pl with
    | taken => rfl
    | heldBack | underWay => exact absurd hle (by decide)
    | dropped => exact absurd hle' (by decide)
  have hat := hpl .taken
  rw [hpl₁] at hat
  exact hat

end Cnx

/-! ### All connections -/

namespace CContext

variable {c c' : CContext} {e : Event} {handed : List CnxRef} {k : CnxRef} {cnx : Cnx}

/-- **The incoming connections**, in the order of creation. -/
def incoming (c : CContext) : List CnxRef :=
  (c.roles.zipIdx.filter fun x => !x.1).map Prod.snd

/-- What the application is handed by an event. -/
def handsOut (c : CContext) : Event → List CnxRef
  | .accept => c.sendCon.queue.head?.toList
  | _ => []

theorem incoming_of_roles (h : c'.roles = c.roles) : c'.incoming = c.incoming := by
  rw [incoming, h, incoming]

/-- An outgoing connection is added. -/
theorem incoming_of_outgoing (h : c'.roles = c.roles ++ [true]) : c'.incoming = c.incoming := by
  rw [incoming, h, List.zipIdx_append, List.filter_append, List.map_append]
  exact List.append_nil _

/-- An incoming connection is added. -/
theorem incoming_of_incoming (h : c'.roles = c.roles ++ [false]) :
    c'.incoming = c.incoming ++ [c.cnxs.length] := by
  have hlen : c.roles.length = c.cnxs.length := List.length_map _
  rw [incoming, h, List.zipIdx_append, List.filter_append, List.map_append, hlen, incoming]
  rw [Nat.zero_add]
  rfl

/-- Every connection is in a state a run leads to. -/
theorem step_sound (h : ∀ cnx ∈ c.cnxs, cnx.Sound) (hstep : c.step e = some c') :
    ∀ cnx ∈ c'.cnxs, cnx.Sound := by
  have hsnoc : ∀ (cnx cnx' : Cnx) (ce : Cnx.Event), cnx.Sound → cnx.step ce = some cnx' →
      cnx'.Sound := by
    rintro cnx cnx' ce ⟨es, hes⟩ hce
    rw [Cnx.Sound, Cnx.step_role hce]
    exact Cnx.run_step hes hce
  refine step_rule h (fun _ cnx cnx' ce _ _ => hsnoc cnx cnx' ce)
    (fun cnx cnx' ae => hsnoc cnx cnx' _) (fun cb cnx hcnx => ?_) ⟨[], rfl⟩ hstep
  obtain ⟨es, hes⟩ := Cnx.connectionCallback_ends hcnx
  refine ⟨es, ?_⟩
  have hrole : cnx.ends.ctx.isClient = false := (Connections.Ends.run_sound hes).1
  change (Connections.new cnx.ends.ctx.isClient).run es = some cnx.ends
  rw [hrole]
  exact hes

theorem atCnx_sendCon {ce : Cnx.Event} (hc : c.atCnx k ce = some c') : c'.sendCon = c.sendCon := by
  rcases atCnx_spec hc with ⟨-, rfl⟩ | ⟨cnx, cnx', -, -, rfl⟩ <;> rfl

theorem atCnxs_sendCon {ks : List CnxRef} {ce : Cnx.Event}
    (hc : ks.foldlM (atCnx · · ce) c = some c') : c'.sendCon = c.sendCon :=
  atCnxs_keeps (g := CContext.sendCon) atCnx_sendCon hc

/-- The receiver goes only with the `Context`. -/
theorem step_isOpen (hno : e ≠ .dropIncoming) (h : c.step e = some c') :
    c'.sendCon.isOpen = c.sendCon.isOpen := by
  cases e with
  | poll =>
    obtain ⟨cnxs, -, h⟩ := Option.bind_eq_some_iff.mp h
    obtain rfl := Option.some.inj h
    rfl
  | callback k cb => rw [atCnx_sendCon h]
  | disconnect k => rw [atCnx_sendCon h]
  | delete k => rw [atCnx_sendCon h]
  | incoming isGoingToClose cb =>
    obtain rfl | ⟨cnx, -, ⟨-, rfl⟩ | ⟨-, h⟩⟩ := newConnectionCallback_cases h
    · rfl
    · rfl
    · rw [atCnx_sendCon h]
      rfl
  | outgoing keepAliveInterval waiting =>
    obtain ⟨-, cnx, rfl, -⟩ := create_spec h
    rfl
  | accept =>
    obtain rfl := Option.some.inj h
    exact Chan.poll_isOpen
  | dropIncoming => exact absurd rfl hno
  | application k ae =>
    simp only [step] at h
    split at h
    · obtain rfl := Option.some.inj h
      rfl
    · rw [atCnx_sendCon h]

/-- **The incoming connections are accounted for**: those in `handed` were handed out, in the
order they came in; the next ones are in the queue; and where neither is true of a connection, its
`Connection` was dropped. -/
structure Handover (c : CContext) (handed : List CnxRef) : Prop where
  order : handed ++ c.sendCon.queue <+: c.incoming
  all : c.sendCon.isOpen = true → handed ++ c.sendCon.queue = c.incoming
  queued : ∀ k ∈ c.sendCon.queue, ∃ cnx, c.cnxs[k]? = some cnx ∧
    cnx.ends.ctx.isClient = false ∧ cnx.ends.connection = true
  owned : ∀ k cnx, c.cnxs[k]? = some cnx → cnx.ends.ctx.isClient = false →
    cnx.ends.connection = true → k ∈ handed ++ c.sendCon.queue

namespace Handover

/-- **No connection is made, and the application does nothing with one it was not handed.** -/
theorem keep (h : c.Handover handed) (hsound : ∀ cnx ∈ c.cnxs, cnx.Sound)
    (hsend : c'.sendCon = c.sendCon) (hroles : c'.roles = c.roles)
    (hcnx : ∀ k cnx', c'.cnxs[k]? = some cnx' → ∃ cnx, c.cnxs[k]? = some cnx ∧
      (cnx' = cnx ∨ ∃ ce, (k ∈ c.sendCon.queue → ∀ ae, ce ≠ .application ae) ∧
        cnx.step ce = some cnx')) : c'.Handover handed := by
  have hincoming := incoming_of_roles hroles
  refine ⟨?_, fun ho => ?_, fun k hk => ?_, fun k cnx' hk' hin hcon => ?_⟩
  · rw [hsend, hincoming]
    exact h.order
  · rw [hsend, hincoming]
    exact h.all (hsend ▸ ho)
  · rw [hsend] at hk
    obtain ⟨cnx, hget, hin, hcon⟩ := h.queued k hk
    have hlen : c'.cnxs.length = c.cnxs.length := by
      simpa [roles] using congrArg List.length hroles
    have hlt : k < c'.cnxs.length := by
      rw [hlen]
      exact (List.getElem?_eq_some_iff.mp hget).choose
    obtain ⟨cnx₁, hget₁, hcase⟩ := hcnx k _ (List.getElem?_eq_getElem hlt)
    obtain rfl := Option.some.inj (hget.symm.trans hget₁)
    refine ⟨_, List.getElem?_eq_getElem hlt, ?_⟩
    rcases hcase with hsame | ⟨ce, hno, hstep⟩
    · rw [hsame]
      exact ⟨hin, hcon⟩
    · exact ⟨(Cnx.step_role hstep).trans hin, (Cnx.step_connection (hno hk) hstep).trans hcon⟩
  · rw [hsend]
    obtain ⟨cnx, hget, rfl | ⟨ce, -, hstep⟩⟩ := hcnx k cnx' hk'
    · exact h.owned k _ hget hin hcon
    -- a `Connection` that came in does not come back, so it was there before
    · have hin₁ := (Cnx.step_role hstep).symm.trans hin
      exact h.owned k cnx hget hin₁
        ((hsound cnx (List.mem_of_getElem? hget)).connection_of_step hin₁ hstep hcon)

/-- Something happens to one connection. -/
theorem atCnx (h : c.Handover handed) (hsound : ∀ cnx ∈ c.cnxs, cnx.Sound) {ce : Cnx.Event}
    (hno : k ∈ c.sendCon.queue → ∀ ae, ce ≠ .application ae) (hc : c.atCnx k ce = some c') :
    c'.Handover handed := by
  have hroles := atCnx_roles hc
  rcases atCnx_spec hc with ⟨-, rfl⟩ | ⟨cnx, cnx', hk, hstep, rfl⟩
  · exact h
  · refine h.keep hsound rfl hroles fun k' x hx => ?_
    rcases eq_or_ne k k' with rfl | hne
    · rw [List.getElem?_set_self (List.getElem?_eq_some_iff.mp hk).choose] at hx
      obtain rfl := Option.some.inj hx
      exact ⟨cnx, hk, Or.inr ⟨ce, hno, hstep⟩⟩
    · rw [List.getElem?_set_ne hne] at hx
      exact ⟨x, hx, Or.inl rfl⟩

/-- The connections, with one more. -/
theorem getElem?_push {x : Cnx} (hk : c.cnxs[k]? = some x) :
    (c.cnxs ++ [cnx])[k]? = some x := by
  rw [List.getElem?_append_left (List.getElem?_eq_some_iff.mp hk).choose, hk]

theorem getElem?_of_push {x : Cnx} (hk : (c.cnxs ++ [cnx])[k]? = some x) :
    c.cnxs[k]? = some x ∨ k = c.cnxs.length ∧ x = cnx := by
  rw [List.getElem?_append] at hk
  split at hk
  · exact Or.inl hk
  · rename_i hge
    obtain ⟨hlt, hx⟩ := List.getElem?_eq_some_iff.mp hk
    have hle := Nat.sub_eq_zero_iff_le.mp (Nat.lt_one_iff.mp hlt)
    refine Or.inr ⟨Nat.le_antisymm hle (Nat.le_of_not_lt hge), ?_⟩
    rw [← hx, List.getElem_singleton]

/-- **An outgoing connection is made.** -/
theorem outgoing (h : c.Handover handed) (hrole : cnx.ends.ctx.isClient = true) :
    CContext.Handover { c with cnxs := c.cnxs ++ [cnx] } handed := by
  have hincoming : CContext.incoming { c with cnxs := c.cnxs ++ [cnx] } = c.incoming := by
    refine incoming_of_outgoing ?_
    rw [roles, List.map_append, List.map_singleton, hrole, roles]
  refine ⟨?_, fun ho => ?_, fun k hk => ?_, fun k x hx hin hcon => ?_⟩
  · rw [hincoming]
    exact h.order
  · rw [hincoming]
    exact h.all ho
  · obtain ⟨x, hget, hx⟩ := h.queued k hk
    exact ⟨x, getElem?_push hget, hx⟩
  · rcases getElem?_of_push hx with hx | ⟨-, rfl⟩
    · exact h.owned k x hx hin hcon
    · rw [hrole] at hin
      exact absurd hin (by simp)

/-- **An incoming connection is made**: it is put into the queue, or it is dropped, if nobody
listens. -/
theorem incoming (h : c.Handover handed) (hrole : cnx.ends.ctx.isClient = false)
    {sendCon : Chan CnxRef} (hcase : c.sendCon.isOpen = true ∧ cnx.ends.connection = true ∧
        sendCon = c.sendCon.push c.cnxs.length ∨
      c.sendCon.isOpen = false ∧ cnx.ends.connection = false ∧ sendCon = c.sendCon) :
    CContext.Handover { c with cnxs := c.cnxs ++ [cnx], sendCon } handed := by
  have hincoming : CContext.incoming { c with cnxs := c.cnxs ++ [cnx], sendCon } =
      c.incoming ++ [c.cnxs.length] := by
    refine incoming_of_incoming ?_
    rw [roles, List.map_append, List.map_singleton, hrole, roles]
  have hqueued : ∀ k ∈ c.sendCon.queue, ∃ x, (c.cnxs ++ [cnx])[k]? = some x ∧
      x.ends.ctx.isClient = false ∧ x.ends.connection = true := fun k hk => by
    obtain ⟨x, hget, hx⟩ := h.queued k hk
    exact ⟨x, getElem?_push hget, hx⟩
  rcases hcase with ⟨hopen, hcon, rfl⟩ | ⟨hclosed, hcon, rfl⟩
  · have hall : handed ++ (c.sendCon.queue ++ [c.cnxs.length]) =
        c.incoming ++ [c.cnxs.length] := by
      rw [← h.all hopen, List.append_assoc]
    refine ⟨?_, fun _ => ?_, fun k hk => ?_, fun k x hx hin hcon' => ?_⟩
    · rw [hincoming, Chan.push_queue]
      exact ⟨[], by rw [List.append_nil, hall]⟩
    · rw [hincoming, Chan.push_queue, hall]
    · rcases List.mem_append.mp hk with hk | hk
      · exact hqueued k hk
      · obtain rfl := List.mem_singleton.mp hk
        exact ⟨cnx, List.getElem?_concat_length, hrole, hcon⟩
    · rw [Chan.push_queue, ← List.append_assoc]
      rcases getElem?_of_push hx with hx | ⟨rfl, -⟩
      · exact List.mem_append_left _ (h.owned k x hx hin hcon')
      · exact List.mem_append_right _ (List.mem_singleton_self _)
  · refine ⟨?_, fun ho => ?_, hqueued, fun k x hx hin hcon' => ?_⟩
    · rw [hincoming]
      exact h.order.trans (List.prefix_append _ _)
    · exact absurd (hclosed.symm.trans ho) (by simp)
    · rcases getElem?_of_push hx with hx | ⟨-, rfl⟩
      · exact h.owned k x hx hin hcon'
      · exact absurd (hcon.symm.trans hcon') (by simp)

/-- **The application takes a connection.** -/
theorem accept (h : c.Handover handed) :
    CContext.Handover { c with sendCon := c.sendCon.poll.2 }
      (handed ++ c.sendCon.queue.head?.toList) := by
  have hmoved : handed ++ c.sendCon.queue.head?.toList ++ c.sendCon.poll.2.queue =
      handed ++ c.sendCon.queue := by
    rw [Chan.poll_queue, List.append_assoc]
    cases c.sendCon.queue <;> rfl
  refine ⟨?_, fun ho => ?_, fun k hk => ?_, fun k cnx hk hin hcon => ?_⟩
  · rw [hmoved]
    exact h.order
  · rw [hmoved]
    rw [Chan.poll_isOpen] at ho
    exact h.all ho
  · rw [Chan.poll_queue] at hk
    exact h.queued k (List.mem_of_mem_tail hk)
  · rw [hmoved]
    exact h.owned k cnx hk hin hcon

/-- The queue is dropped: what was in it is not there any more. -/
theorem owned_of_dropped {ks : List CnxRef}
    (h : ∀ k cnx, c.cnxs[k]? = some cnx → cnx.ends.ctx.isClient = false →
      cnx.ends.connection = true → k ∈ handed ++ ks)
    (hc : ks.foldlM (CContext.atCnx · · (.application .dropConnection)) c = some c') :
    ∀ k cnx, c'.cnxs[k]? = some cnx → cnx.ends.ctx.isClient = false →
      cnx.ends.connection = true → k ∈ handed := by
  induction ks generalizing c with
  | nil =>
    obtain rfl : c = c' := by simpa using hc
    rwa [List.append_nil] at h
  | cons k ks ih =>
    rw [List.foldlM_cons] at hc
    obtain ⟨c₁, hc₁, hc⟩ := Option.bind_eq_some_iff.mp hc
    refine ih (c := c₁) (fun k' cnx' hk' hin hcon => ?_) hc
    -- the one that was dropped is not there, and the others have not moved
    have hother : k' ≠ k → k' ∈ handed ++ k :: ks → k' ∈ handed ++ ks := fun hne hmem => by
      rcases List.mem_append.mp hmem with hmem | hmem
      · exact List.mem_append_left _ hmem
      · exact List.mem_append_right _ ((List.mem_cons.mp hmem).resolve_left hne)
    rcases atCnx_spec hc₁ with ⟨hnone, rfl⟩ | ⟨cnx, cnx₁, hk, hstep, rfl⟩
    · refine hother ?_ (h k' cnx' hk' hin hcon)
      rintro rfl
      exact absurd (hnone.symm.trans hk') (by simp)
    · rcases eq_or_ne k k' with rfl | hne
      · rw [List.getElem?_set_self (List.getElem?_eq_some_iff.mp hk).choose] at hk'
        obtain rfl := Option.some.inj hk'
        exact absurd (hcon.symm.trans (Cnx.step_dropConnection hstep)) (by simp)
      · rw [List.getElem?_set_ne hne] at hk'
        exact hother hne.symm (h k' cnx' hk' hin hcon)

/-- **The receiver is dropped**, with the connections in the queue. -/
theorem dropIncoming (h : c.Handover handed) (hc : c.dropIncoming = some c') :
    c'.Handover handed := by
  have hsend : c'.sendCon = c.sendCon.dropReceiver := atCnxs_sendCon hc
  have hroles : c'.roles = c.roles :=
    atCnxs_roles (c := { c with sendCon := c.sendCon.dropReceiver }) hc
  refine ⟨?_, fun ho => ?_, fun k hk => ?_, fun k cnx hk hin hcon => ?_⟩
  · rw [hsend, incoming_of_roles hroles]
    rw [show c.sendCon.dropReceiver.queue = [] from rfl, List.append_nil]
    exact (List.prefix_append _ _).trans h.order
  · rw [hsend] at ho
    exact absurd ho (by simp [Chan.dropReceiver])
  · rw [hsend] at hk
    exact absurd hk (by simp [Chan.dropReceiver])
  · exact List.mem_append_left _ (owned_of_dropped
      (c := { c with sendCon := c.sendCon.dropReceiver }) h.owned hc k cnx hk hin hcon)

/-- **Every step keeps the account.** -/
theorem step (h : c.Handover handed) (hsound : ∀ cnx ∈ c.cnxs, cnx.Sound)
    (hstep : c.step e = some c') : c'.Handover (handed ++ c.handsOut e) := by
  have hnone : c'.Handover handed → c'.Handover (handed ++ []) := fun h => by
    rwa [List.append_nil]
  cases e with
  | poll =>
    refine hnone ?_
    obtain ⟨cnxs, hc, hstep⟩ := Option.bind_eq_some_iff.mp hstep
    obtain rfl := Option.some.inj hstep
    refine h.keep hsound rfl (mapM_roles hc) fun k cnx' hk' => ?_
    obtain ⟨cnx, hk, hretain⟩ := Each.of_mapM_getElem? hc hk'
    exact ⟨cnx, hk, Or.inr ⟨.retain, fun _ ae => by simp, hretain⟩⟩
  | callback k cb => exact hnone (h.atCnx hsound (fun _ ae => by simp) hstep)
  | disconnect k => exact hnone (h.atCnx hsound (fun _ ae => by simp) hstep)
  | delete k => exact hnone (h.atCnx hsound (fun _ ae => by simp) hstep)
  | incoming isGoingToClose cb =>
    refine hnone ?_
    obtain rfl | ⟨cnx, hcnx, hcase⟩ := newConnectionCallback_cases hstep
    · exact h
    · have hrole : cnx.enlist.ends.ctx.isClient = false := by
        obtain ⟨es, hes⟩ := Cnx.connectionCallback_ends hcnx
        exact (Connections.Ends.run_sound hes).1
      have hcon : cnx.enlist.ends.connection = true := Cnx.connectionCallback_connection hcnx
      obtain ⟨hopen, rfl⟩ | ⟨hclosed, hstep⟩ := hcase
      · exact h.incoming hrole (Or.inl ⟨hopen, hcon, rfl⟩)
      · rcases atCnx_spec hstep with ⟨hno, -⟩ | ⟨x, cnx', hx, hdrop, rfl⟩
        · rw [push, List.getElem?_concat_length] at hno
          exact absurd hno (by simp)
        · rw [push, List.getElem?_concat_length] at hx
          obtain rfl := Option.some.inj hx
          have hset : (c.cnxs ++ [cnx.enlist]).set c.cnxs.length cnx' = c.cnxs ++ [cnx'] := by
            rw [List.set_append_right _ _ (Nat.le_refl _), Nat.sub_self]
            rfl
          simp only [push, hset]
          exact h.incoming ((Cnx.step_role hdrop).trans hrole)
            (Or.inr ⟨hclosed, Cnx.step_dropConnection hdrop, rfl⟩)
  | outgoing keepAliveInterval waiting =>
    refine hnone ?_
    obtain ⟨-, cnx, rfl, -, hrole⟩ := create_spec hstep
    exact h.outgoing hrole
  | accept =>
    obtain rfl := Option.some.inj hstep
    exact h.accept
  | dropIncoming => exact hnone (h.dropIncoming hstep)
  | application k ae =>
    refine hnone ?_
    simp only [CContext.step] at hstep
    split at hstep
    · obtain rfl := Option.some.inj hstep
      exact h
    · exact h.atCnx hsound (fun hmem => absurd hmem ‹_›) hstep

end Handover

/-- At the start there is no connection. -/
theorem new_handover {checks : Bool} {interval : Option Duration} :
    (new checks interval).Handover [] :=
  ⟨List.prefix_rfl, fun _ => rfl, fun _ hk => absurd hk List.not_mem_nil,
    fun _ _ hk => absurd hk (by simp [new])⟩

end CContext

/-! ### Owners -/

/-- **Who has a `Connection`.** -/
inductive Owner where
  /-- Its context, in `wait_for_ready_state`. -/
  | context
  /-- The channel of its `NewConnectionFuture`. -/
  | future
  /-- The queue of `send_con`. -/
  | queue
  /-- The application. -/
  | application
  /-- It was dropped. -/
  | nobody
  deriving DecidableEq, Repr

namespace Owner

/-- How far it has come. -/
def rank : Owner → ℕ
  | context => 0
  | future => 1
  | queue => 2
  | application => 3
  | nobody => 4

/-- What it means for the two ends. -/
def place : Owner → Connections.Place
  | context => .heldBack
  | future => .underWay
  | queue | application => .taken
  | nobody => .dropped

/-- What goes forward at the two ends does, if the application does not put a connection back. -/
theorem rank_le {o o' : Owner} (h : o.place.rank ≤ o'.place.rank)
    (hback : o = .application → o' ≠ .queue) : o.rank ≤ o'.rank := by
  revert h hback
  cases o <;> cases o' <;> decide

end Owner

namespace CContext

variable {c c' : CContext} {handed handed' : List CnxRef} {k : CnxRef} {cnx cnx' : Cnx}

/-- **Who has the `Connection` of `cnx`**, the connection `k`, going by what each of them can
tell. -/
def owns (c : CContext) (k : CnxRef) (cnx : Cnx) : Owner → Bool
  | .context => cnx.ends.isAt .heldBack
  | .future => cnx.ends.isAt .underWay
  | .queue => k ∈ c.sendCon.queue
  | .application => cnx.ends.isAt .taken && k ∉ c.sendCon.queue
  | .nobody => cnx.ends.isAt .dropped

namespace Handover

/-- What is in the queue is nowhere else. -/
theorem taken_of_mem (h : c.Handover handed) (hk : c.cnxs[k]? = some cnx)
    (hmem : k ∈ c.sendCon.queue) : cnx.ends.isAt .taken = true ∧
      cnx.ends.ctx.isClient = false := by
  obtain ⟨x, hx, hin, hcon⟩ := h.queued k hmem
  obtain rfl := Option.some.inj (hk.symm.trans hx)
  exact ⟨hcon, hin⟩

/-- An owner is at its place. -/
theorem isAt_of_owns (h : c.Handover handed) (hk : c.cnxs[k]? = some cnx) {o : Owner}
    (ho : c.owns k cnx o = true) : cnx.ends.isAt o.place = true := by
  cases o with
  | queue => exact (h.taken_of_mem hk (of_decide_eq_true ho)).1
  | application => exact (Bool.and_eq_true_iff.mp ho).1
  | context | future | nobody => exact ho

/-- **There is one owner.** -/
theorem existsUnique_owner (h : c.Handover handed) (hsound : ∀ cnx ∈ c.cnxs, cnx.Sound)
    (hk : c.cnxs[k]? = some cnx) : ∃! o, c.owns k cnx o = true := by
  obtain ⟨pl, hpl, -⟩ := (hsound cnx (List.mem_of_getElem? hk)).placed
  have hself : cnx.ends.isAt pl = true := (hpl pl).trans (beq_self_eq_true pl)
  have hplace : ∀ o, c.owns k cnx o = true → pl = o.place := fun o ho =>
    hpl.eq_of_isAt (h.isAt_of_owns hk ho)
  -- the place tells the owner, but for the queue and the application
  cases pl with
  | heldBack =>
    refine ⟨.context, hself, fun o ho => ?_⟩
    have hp := hplace o ho
    cases o <;> first | rfl | exact absurd hp (by decide)
  | underWay =>
    refine ⟨.future, hself, fun o ho => ?_⟩
    have hp := hplace o ho
    cases o <;> first | rfl | exact absurd hp (by decide)
  | dropped =>
    refine ⟨.nobody, hself, fun o ho => ?_⟩
    have hp := hplace o ho
    cases o <;> first | rfl | exact absurd hp (by decide)
  | taken =>
    by_cases hmem : k ∈ c.sendCon.queue
    · refine ⟨.queue, decide_eq_true hmem, fun o ho => ?_⟩
      have hp := hplace o ho
      cases o with
      | queue => rfl
      | application => exact absurd hmem (of_decide_eq_true (Bool.and_eq_true_iff.mp ho).2)
      | _ => exact absurd hp (by decide)
    · refine ⟨.application, Bool.and_eq_true_iff.mpr ⟨hself, decide_eq_true hmem⟩, fun o ho => ?_⟩
      have hp := hplace o ho
      cases o with
      | queue => exact absurd (of_decide_eq_true ho) hmem
      | application => rfl
      | _ => exact absurd hp (by decide)

/-- **What the application has, it was handed**, if it did not ask for it. -/
theorem handed_of_owns (h : c.Handover handed) (hk : c.cnxs[k]? = some cnx)
    (hin : cnx.ends.ctx.isClient = false) (ho : c.owns k cnx .application = true) :
    k ∈ handed := by
  obtain ⟨hat, hmem⟩ := Bool.and_eq_true_iff.mp ho
  exact (List.mem_append.mp (h.owned k cnx hk hin hat)).resolve_right (of_decide_eq_true hmem)

/-- No connection is handed out twice, or still in the queue then. -/
theorem nodup (h : c.Handover handed) : (handed ++ c.sendCon.queue).Nodup := by
  refine h.order.sublist.nodup (List.Nodup.sublist (List.filter_sublist.map _) ?_)
  rw [List.zipIdx_map_snd]
  exact List.nodup_range'

/-- **A `Connection` only ever moves forward.** -/
theorem rank_le (h : c.Handover handed) (h' : c'.Handover (handed ++ handed'))
    (hsound : ∀ cnx ∈ c.cnxs, cnx.Sound) (hk : c.cnxs[k]? = some cnx)
    (hk' : c'.cnxs[k]? = some cnx') {es : List Connections.Event}
    (hrun : cnx.ends.run es = some cnx'.ends) {o o' : Owner} (ho : c.owns k cnx o = true)
    (ho' : c'.owns k cnx' o' = true) : o.rank ≤ o'.rank := by
  refine Owner.rank_le ?_ ?_
  · obtain ⟨pl, hpl, -⟩ := (hsound cnx (List.mem_of_getElem? hk)).placed
    obtain ⟨pl', hpl', hle⟩ := hpl.run hrun
    obtain rfl := hpl.eq_of_isAt (h.isAt_of_owns hk ho)
    obtain rfl := hpl'.eq_of_isAt (h'.isAt_of_owns hk' ho')
    exact hle
  · -- what was handed out is not in the queue later, as nothing is listed twice
    rintro rfl rfl
    have hmem : k ∈ c'.sendCon.queue := of_decide_eq_true ho'
    have hrole : cnx'.ends.ctx.isClient = cnx.ends.ctx.isClient :=
      Connections.Ends.run_rule (P := fun ctx => ctx.isClient = cnx.ends.ctx.isClient)
        (fun _ _ h _ hrole => hrole.trans h) (fun _ _ _ h => h) rfl hrun
    have hin := hrole.symm.trans (h'.taken_of_mem hk' hmem).2
    have hhanded := List.mem_append_left handed' (h.handed_of_owns hk hin ho)
    exact (List.nodup_append.mp h'.nodup).2.2 k hhanded k hmem rfl

end Handover

/-- **A connection goes on from where it was.** -/
theorem step_follows {e : Event} {c₀ : CContext} (h : ∀ k cnx', c.cnxs[k]? = some cnx' →
      k < c₀.cnxs.length → ∃ cnx es, c₀.cnxs[k]? = some cnx ∧ cnx.ends.run es = some cnx'.ends)
    (hle : c₀.cnxs.length ≤ c.cnxs.length) (hstep : c.step e = some c') :
    ∀ k cnx', c'.cnxs[k]? = some cnx' → k < c₀.cnxs.length →
      ∃ cnx es, c₀.cnxs[k]? = some cnx ∧ cnx.ends.run es = some cnx'.ends := by
  have hone : ∀ k (cnx cnx' : Cnx) ce, (k < c₀.cnxs.length → ∃ cnx₀ es,
      c₀.cnxs[k]? = some cnx₀ ∧ cnx₀.ends.run es = some cnx.ends) → cnx.step ce = some cnx' →
      k < c₀.cnxs.length → ∃ cnx₀ es, c₀.cnxs[k]? = some cnx₀ ∧
        cnx₀.ends.run es = some cnx'.ends := fun k cnx cnx' ce h hce hlt => by
    obtain ⟨cnx₀, es, hk, hes⟩ := h hlt
    obtain ⟨es', hes'⟩ := Cnx.run_step hes hce
    exact ⟨cnx₀, es', hk, hes'⟩
  exact step_rule_at h (fun k cnx cnx' ce _ _ => hone k cnx cnx' ce)
    (fun k cnx cnx' ae => hone k cnx cnx' _) (fun _ _ _ hlt => absurd hlt (Nat.not_lt.mpr hle))
    (fun hlt => absurd hlt (Nat.not_lt.mpr hle)) hstep

end CContext

/-! ### The event loop -/

namespace ContextInner

variable {c c' : ContextInner} {e : Event} {setup : Setup} {es : List Event}

/-- What `Context::poll` gives to the application. -/
def handsOut (c : ContextInner) : Event → List CnxRef
  | .application .pollContext =>
    if c.closeHandle.receiver then
      match c.closeHandle.poll.1 with
      | .ok .notReady => c.context.handsOut .accept
      | _ => []
    else []
  | _ => []

/-- **All incoming connections the application was given** in a run, oldest first. -/
abbrev handedOf (setup : Setup) (es : List Event) : List CnxRef :=
  Trace.log step handsOut (new setup) es

/-- **The contexts take a step that gives `out` to the application**, or none. -/
def Hands (c c' : CContext) (out : List CnxRef) : Prop :=
  c' = c ∧ out = [] ∨ ∃ e, c.step e = some c' ∧ c.handsOut e = out

/-- The `Context` was not dropped. -/
structure Listens (c c' : ContextInner) : Prop where
  receiver : c'.closeHandle.receiver = true → c.closeHandle.receiver = true
  isOpen : c'.closeHandle.receiver = true →
    c'.context.sendCon.isOpen = c.context.sendCon.isOpen

/-- The contexts, and what the loop shares with the `Context`, are left alone. -/
theorem Listens.same (hc : c'.context = c.context)
    (hh : c'.closeHandle.receiver = c.closeHandle.receiver) : Listens c c' :=
  ⟨fun h => hh ▸ h, fun _ => by rw [hc]⟩

/-- The contexts take a step that does not drop the receiver. -/
theorem Listens.step {ce : CContext.Event} (hno : ce ≠ .dropIncoming)
    (hc : c.context.step ce = some c'.context)
    (hh : c'.closeHandle.receiver = c.closeHandle.receiver) : Listens c c' :=
  ⟨fun h => hh ▸ h, fun _ => CContext.step_isOpen hno hc⟩

theorem closeHandle_send (o : Oneshot Unit) : (o.send ()).receiver = o.receiver := by
  rw [Oneshot.send]

/-- **The application** is given a connection only by `Context::poll`. -/
theorem stepApplication_hands {call : Call} (h : c.stepApplication call = some c') :
    Hands c.context c'.context (c.handsOut (.application call)) ∧ Listens c c' := by
  cases call with
  | newConnection addr serverName =>
    obtain rfl := Option.some.inj h
    split <;> exact ⟨Or.inl ⟨rfl, rfl⟩, .same rfl rfl⟩
  | cloneHandle | dropHandle =>
    obtain rfl := Option.some.inj h
    split <;> exact ⟨Or.inl ⟨rfl, rfl⟩, .same rfl rfl⟩
  | dropFuture r =>
    simp only [stepApplication] at h
    split at h
    · obtain rfl := Option.some.inj h
      exact ⟨Or.inl ⟨rfl, rfl⟩, .same rfl rfl⟩
    · split at h
      · obtain ⟨context, hcontext, h⟩ := Option.bind_eq_some_iff.mp h
        obtain rfl := Option.some.inj h
        exact ⟨Or.inr ⟨_, hcontext, rfl⟩, .step (by simp) hcontext rfl⟩
      · obtain rfl := Option.some.inj h
        exact ⟨Or.inl ⟨rfl, rfl⟩, .same rfl rfl⟩
  | pollContext =>
    simp only [stepApplication] at h
    have hreceiver : c.closeHandle.poll.2.receiver = c.closeHandle.receiver :=
      Oneshot.poll_receiver
    split at h
    · rename_i hr
      rw [handsOut, if_pos hr]
      split at h
      · rename_i closeHandle hpoll
        rw [hpoll] at hreceiver
        obtain ⟨context, hcontext, h⟩ := Option.bind_eq_some_iff.mp h
        obtain rfl := Option.some.inj h
        simp only [hpoll]
        exact ⟨Or.inr ⟨_, hcontext, rfl⟩, .step (by simp) hcontext hreceiver⟩
      · rename_i a closeHandle hne hpoll
        rw [hpoll] at hreceiver
        obtain rfl := Option.some.inj h
        refine ⟨Or.inl ⟨rfl, ?_⟩, .same rfl hreceiver⟩
        simp only [hpoll]
    · rename_i hr
      obtain rfl := Option.some.inj h
      rw [handsOut, if_neg hr]
      exact ⟨Or.inl ⟨rfl, rfl⟩, .same rfl rfl⟩
  | dropContext =>
    simp only [stepApplication] at h
    split at h
    · obtain ⟨context, hcontext, h⟩ := Option.bind_eq_some_iff.mp h
      obtain rfl := Option.some.inj h
      exact ⟨Or.inr ⟨_, hcontext, rfl⟩, fun hr => absurd hr Bool.false_ne_true,
        fun hr => absurd hr Bool.false_ne_true⟩
    · obtain rfl := Option.some.inj h
      exact ⟨Or.inl ⟨rfl, rfl⟩, .same rfl rfl⟩
  | connection k e =>
    obtain ⟨context, hcontext, h⟩ := Option.bind_eq_some_iff.mp h
    obtain rfl := Option.some.inj h
    exact ⟨Or.inr ⟨_, hcontext, rfl⟩, .step (by simp) hcontext rfl⟩

/-- **A step is none of the contexts, or one**, and gives to the application what that one does. -/
theorem step_hands (h : c.step e = some c') :
    Hands c.context c'.context (c.handsOut e) ∧ Listens c c' := by
  rw [step] at h
  split at h
  · cases e with
    | poll | receive r =>
      obtain rfl := Option.some.inj h
      first
        | exact ⟨Or.inl ⟨rfl, rfl⟩, .same rfl rfl⟩
        | cases r <;> exact ⟨Or.inl ⟨rfl, rfl⟩, .same rfl rfl⟩
    | contexts =>
      obtain ⟨context, hcontext, h⟩ := Option.bind_eq_some_iff.mp h
      have hstep : c.context.step .poll = some context := hcontext
      have hno : CContext.Event.poll ≠ .dropIncoming := by simp
      obtain rfl := Option.some.inj h
      split
      · exact ⟨Or.inr ⟨.poll, hstep, rfl⟩, .step hno hstep (closeHandle_send c.closeHandle)⟩
      · exact ⟨Or.inr ⟨.poll, hstep, rfl⟩, .step hno hstep rfl⟩
    | request created =>
      obtain ⟨context, requests, phase, rfl, -, rfl | ⟨waiting, hcontext⟩⟩ :=
        checkForNewConnectionRequest_frame h
      · exact ⟨Or.inl ⟨rfl, rfl⟩, .same rfl rfl⟩
      · exact ⟨Or.inr ⟨_, hcontext, rfl⟩, .step (by simp) hcontext rfl⟩
    | incomingPacketReturns bytes stateless =>
      obtain rfl := Option.some.inj h
      have hsame : (c.incomingPacketReturns bytes stateless).context = c.context ∧
          (c.incomingPacketReturns bytes stateless).closeHandle = c.closeHandle := by
        rw [incomingPacketReturns]
        split <;> exact ⟨rfl, rfl⟩
      exact ⟨Or.inl ⟨hsame.1, rfl⟩, .same hsame.1 (by rw [hsame.2])⟩
    | stateless answer =>
      obtain rfl := Option.some.inj h
      have hsame : (c.sendStatelessPackets answer).context = c.context ∧
          (c.sendStatelessPackets answer).closeHandle = c.closeHandle := by
        rcases sendStatelessPackets_spec c answer with ⟨-, hc⟩ |
          ⟨packet, stateless, phase, -, hc, -⟩ <;> rw [hc] <;> exact ⟨rfl, rfl⟩
      exact ⟨Or.inl ⟨hsame.1, rfl⟩, .same hsame.1 (by rw [hsame.2])⟩
    | flush answer =>
      obtain ⟨notSendLength, packets, phase, rfl⟩ := flushPending_frame h
      exact ⟨Or.inl ⟨rfl, rfl⟩, .same rfl rfl⟩
    | due d =>
      obtain ⟨context, phase, rfl⟩ := nextConnection_frame h
      rcases (nextConnection_spec h).2 with hcontext | ⟨k, cnx, -, -, -, hdelete⟩
      · exact ⟨Or.inl ⟨hcontext, rfl⟩, .same hcontext rfl⟩
      · exact ⟨Or.inr ⟨_, hdelete, rfl⟩, .step (by simp) hdelete rfl⟩
    | packetPrepared bytes ret answer =>
      obtain ⟨buffer, notSendLength, packets, phase, rfl⟩ := packetPrepared_frame h
      exact ⟨Or.inl ⟨rfl, rfl⟩, .same rfl rfl⟩
    | sleep nextWake =>
      obtain rfl := Option.some.inj h
      have hsame : (c.sleep nextWake).context = c.context ∧
          (c.sleep nextWake).closeHandle = c.closeHandle := by
        rw [sleep]
        split
        · exact ⟨rfl, rfl⟩
        · split <;> exact ⟨rfl, rfl⟩
      exact ⟨Or.inl ⟨hsame.1, rfl⟩, .same hsame.1 (by rw [hsame.2])⟩
    | quic q =>
      obtain ⟨context, hcontext, h⟩ := Option.bind_eq_some_iff.mp h
      obtain rfl := Option.some.inj h
      refine ⟨Or.inr ⟨_, hcontext, ?_⟩, .step ?_ hcontext rfl⟩
      · cases q <;> rfl
      · cases q <;> simp [QuicEvent.toContext]
    | application call => exact stepApplication_hands h
  · rename_i hpos
    obtain rfl := Option.some.inj h
    refine ⟨Or.inl ⟨rfl, ?_⟩, .same rfl rfl⟩
    cases e with
    | application call => exact absurd rfl hpos
    | _ => rfl

/-- **The incoming connections of the event loop are accounted for.** -/
structure HandsOver (c : ContextInner) (handed : List CnxRef) : Prop where
  account : c.context.Handover handed
  sound : ∀ cnx ∈ c.context.cnxs, cnx.Sound
  isOpen : c.closeHandle.receiver = true → c.context.sendCon.isOpen = true

/-- **Every step keeps the account.** -/
theorem HandsOver.step {handed : List CnxRef} (h : c.HandsOver handed)
    (hstep : c.step e = some c') : c'.HandsOver (handed ++ c.handsOut e) := by
  obtain ⟨hhands, hlistens⟩ := step_hands hstep
  have hopen : c'.closeHandle.receiver = true → c'.context.sendCon.isOpen = true := fun hr =>
    (hlistens.isOpen hr).trans (h.isOpen (hlistens.receiver hr))
  rcases hhands with ⟨hsame, hout⟩ | ⟨ce, hce, hout⟩
  · rw [hout, List.append_nil]
    exact ⟨hsame ▸ h.account, hsame ▸ h.sound, hopen⟩
  · rw [← hout]
    exact ⟨h.account.step h.sound hce, CContext.step_sound h.sound hce, hopen⟩

theorem run_handsOver (hrun : (new setup).run es = some c) :
    c.HandsOver (handedOf setup es) := by
  refine Trace.run_records (R := fun es c => c.HandsOver (handedOf setup es)) ?_ ?_ hrun
  · rintro es e c c' hrun h hstep
    rw [handedOf, Trace.log_append hrun, Trace.log_singleton]
    exact h.step hstep
  · exact ⟨CContext.new_handover, fun cnx hcnx => absurd hcnx List.not_mem_nil, fun _ => rfl⟩

/-- **A connection stays where it is in the order, and goes on from where it was.** -/
theorem run_follows (hrun : c.run es = some c') {k : CnxRef} {cnx : Cnx}
    (hk : c.context.cnxs[k]? = some cnx) :
    ∃ cnx' es', c'.context.cnxs[k]? = some cnx' ∧ cnx.ends.run es' = some cnx'.ends := by
  have hlt := (List.getElem?_eq_some_iff.mp hk).choose
  obtain ⟨hle, h⟩ := Trace.run_keeps (P := fun c' : ContextInner =>
    c.context.cnxs.length ≤ c'.context.cnxs.length ∧ ∀ k cnx', c'.context.cnxs[k]? = some cnx' →
      k < c.context.cnxs.length → ∃ cnx es, c.context.cnxs[k]? = some cnx ∧
        cnx.ends.run es = some cnx'.ends) (fun c₁ e _ c₂ ⟨hle, h⟩ hstep => by
    rcases (step_hands hstep).1 with ⟨hsame, -⟩ | ⟨ce, hce, -⟩
    · rw [hsame]
      exact ⟨hle, h⟩
    · exact ⟨hle.trans (CContext.step_length hce), CContext.step_follows h hle hce⟩)
    ⟨Nat.le_refl _, fun k cnx' hk' _ => ⟨cnx', [], hk', rfl⟩⟩ hrun
  have hk' := List.getElem?_eq_getElem (Nat.lt_of_lt_of_le hlt hle)
  obtain ⟨cnx₁, es', hk₁, hes'⟩ := h k _ hk' hlt
  obtain rfl := Option.some.inj (hk.symm.trans hk₁)
  exact ⟨_, es', hk', hes'⟩

/-- **A connection has one owner.** In every run the application is given the incoming
connections in the order they came in, none twice, and as long as it has its `Context` those it
was not given are in the queue. Each connection has exactly one owner, and what the application
has without asking for it, it was given by `Context::poll`. However the run goes on, a connection
only moves forward: from its context to its future, from there or from the queue to the
application, and from all of them to nobody. -/
theorem connections_have_one_owner (hrun : (new setup).run es = some c) :
    handedOf setup es ++ c.context.sendCon.queue <+: c.context.incoming ∧
    (handedOf setup es ++ c.context.sendCon.queue).Nodup ∧
    (c.contextDropped = false →
      handedOf setup es ++ c.context.sendCon.queue = c.context.incoming) ∧
    ∀ k cnx, c.context.cnxs[k]? = some cnx →
      (∃! o, c.context.owns k cnx o = true) ∧
      (cnx.ends.ctx.isClient = false → c.context.owns k cnx .application = true →
        k ∈ handedOf setup es) ∧
      ∀ es' c', c.run es' = some c' → ∃ cnx', c'.context.cnxs[k]? = some cnx' ∧
        ∀ o o', c.context.owns k cnx o = true → c'.context.owns k cnx' o' = true →
          o.rank ≤ o'.rank := by
  obtain ⟨haccount, hsound, hopen⟩ := run_handsOver hrun
  refine ⟨haccount.order, haccount.nodup, fun hd => ?_, fun k cnx hk => ⟨?_, ?_, ?_⟩⟩
  · rw [contextDropped, Bool.not_eq_false'] at hd
    exact haccount.all (hopen hd)
  · exact haccount.existsUnique_owner hsound hk
  · exact haccount.handed_of_owns hk
  · intro es' c' hrun'
    have hall : (new setup).run (es ++ es') = some c' := by
      simp only [run] at hrun hrun' ⊢
      rw [Trace.run_append, hrun, Option.bind_some, hrun']
    have haccount' := (run_handsOver hall).account
    rw [handedOf, Trace.log_append hrun] at haccount'
    obtain ⟨cnx', es₁, hk', hes₁⟩ := run_follows hrun' hk
    exact ⟨cnx', hk', fun o o' => haccount.rank_le haccount' hsound hk hk' hes₁⟩

/-- Two connections come in, and the first one is taken. -/
def twoIncoming : List Event := [.poll, .contexts, .request true, .receive (.datagram [0]),
  .quic (.incoming false (.other .almostReady)), .quic (.incoming false (.other .almostReady)),
  .application .pollContext]

theorem connections_have_one_owner_of_two_incoming :
    ∃ c, (new (.default 1536)).run twoIncoming = some c ∧ c.context.sendCon.queue = [1] ∧
      c.context.incoming = [0, 1] ∧ ∀ cnx, c.context.cnxs[0]? = some cnx →
        c.context.owns 0 cnx .application = true ∧ ∃! o, c.context.owns 0 cnx o = true := by
  have hfacts : ((new (.default 1536)).run twoIncoming).map (fun c =>
      (c.context.sendCon.queue, c.contextDropped,
        c.context.cnxs[0]?.map fun cnx => c.context.owns 0 cnx .application)) =
      some ([1], false, some true) := rfl
  have hhanded : handedOf (.default 1536) twoIncoming = [0] := rfl
  obtain ⟨c, hrun, hc⟩ := Option.map_eq_some_iff.mp hfacts
  simp only [Prod.mk.injEq] at hc
  obtain ⟨hqueue, hdropped, howns⟩ := hc
  obtain ⟨-, -, hall, howner⟩ := connections_have_one_owner hrun
  refine ⟨c, hrun, hqueue, ?_, fun cnx hk => ⟨?_, (howner 0 cnx hk).1⟩⟩
  · rw [← hall hdropped, hhanded, hqueue]
    rfl
  · rw [hk] at howns
    exact Option.some.inj howns

end ContextInner

end Endpoint

end PicoquicRs
