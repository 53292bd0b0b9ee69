import PicoquicRs.Connections.Total
import PicoquicRs.Endpoint.Connecting
import PicoquicRs.Endpoint.References

/-!
# The event loop does not panic

Whatever the socket, the timer and picoquic answer, and whatever the application does, no step of
the event loop panics or works on a context that was freed
(`PicoquicRs.Endpoint.ContextInner.never_panics`), as long as picoquic and the application keep to
a few rules (`PicoquicRs.Endpoint.ContextInner.Allows`): a connection is closed once, a stream of
one's own is called back for after it was created, picoquic provides a buffer where it asks for
data and does not claim to have written beyond the end of the one it was given; and the application
asks for no connection to an unspecified address, and for no more streams than there are ids. The
keep-alive interval that was configured has to be one that picoquic can be handed
(`PicoquicRs.KeepAliveFits`).

What carries the proof is for each connection that its references are accounted for, its requests
are numbered and its streams are linked (`PicoquicRs.Endpoint.Cnx.Safe`).
-/

namespace PicoquicRs

/-! ### The two ends of a connection -/

namespace Connections

/-- The event is no callback but a close, and asks for no stream. -/
def Event.isPlain : Event → Bool
  | .newStream _ | .callback _ => false
  | _ => true

namespace Ends

open Context

variable {p p' : Ends} {e : Event}

/-- **The event is one that picoquic and the application may come up with.** -/
structure Allows (p : Ends) (e : Event) : Prop where
  ownCreated : p.ownCreated e = true
  buffer : ¬ e.isNull
  few : p.ctx.answers.next + (p.requests e).length ≤ 2 ^ 62

/-- Whether picoquic provides a buffer can be seen. -/
instance decidableIsNull : ∀ e : Event, Decidable e.isNull
  | .callback (.stream _ (.prepareToSend none _)) => isTrue trivial
  | .callback (.stream _ (.prepareToSend (some _) _)) | .callback (.stream _ (.data _ _))
  | .callback .almostReady | .newStream _ | .cloneHandle | .dropHandle | .pollRequest _
  | .dropRequest _ | .pollCreated | .dropCreated | .pollConnection | .dropConnection
  | .closeImmediately | .stream _ _ | .close _ | .poll | .drop => isFalse id

instance decidableAllows (p : Ends) (e : Event) : Decidable (p.Allows e) :=
  decidable_of_iff (p.ownCreated e = true ∧ ¬ e.isNull ∧
      p.ctx.answers.next + (p.requests e).length ≤ 2 ^ 62)
    ⟨fun h => ⟨h.1, h.2.1, h.2.2⟩, fun h => ⟨h.ownCreated, h.buffer, h.few⟩⟩

/-- **Nothing is missing that a step needs.** -/
structure Sane (p : Ends) : Prop where
  numbered : ∃ done left, p.ctx.Numbered p.ctx.isClient done left
  own : p.ctx.Own
  linked : p.ctx.AllLinked
  few : p.ctx.answers.next ≤ 2 ^ 62

theorem new_sane (isClient : Bool) : (new isClient).Sane := by
  obtain ⟨⟨done, left, -, hn⟩, hown, hlinked⟩ := new_known isClient
  exact ⟨⟨done, left, hn⟩, hown, hlinked, Nat.zero_le _⟩

/-- **A step that is allowed does not panic.** -/
theorem Sane.step (h : p.Sane) (hok : p.Allows e) : ∃ p', p.step e = some p' ∧ p'.Sane := by
  obtain ⟨⟨done, left, hn⟩, hown, hlinked, hfew⟩ := h
  -- there are as many answers as there were requests
  have hlen : (done ++ left).length = p.ctx.answers.next := by
    rw [List.length_append, hn.answers]
  obtain ⟨p', hp'⟩ := step_total hn hown hlinked (hlen ▸ hfew) hok.buffer
  obtain ⟨done', left', hall, hn'⟩ := step_numbered hn hp'
  refine ⟨p', hp', ⟨done', left', hn'.role.symm ▸ hn'⟩, step_own hown hok.ownCreated hp',
    step_allLinked hlinked hp', ?_⟩
  rw [hn'.answers, ← List.length_append, hall, List.length_append, hlen]
  exact hok.few

/-- An event that neither is a callback for a stream nor asks for one is allowed. -/
theorem Sane.allows (h : p.Sane) (he : e.isPlain = true) : p.Allows e := by
  refine ⟨?_, fun hnull => ?_, ?_⟩
  · cases e <;> first | rfl | exact absurd he Bool.false_ne_true
  · cases e <;> first | exact hnull | exact absurd he Bool.false_ne_true
  · have hno : p.requests e = [] := by
      cases e <;> first | rfl | exact absurd he Bool.false_ne_true
    rw [hno]
    exact h.few

end Ends

end Connections

namespace Endpoint

open Futures

open Time (Duration)

/-! ### One connection -/

namespace Cnx

variable {c c' : Cnx}

/-- **What picoquic keeps to when it calls back.** -/
def MayCallBack (c : Cnx) : Callback → Prop
  | .close _ => c.registered = true → c.owned = true
  | .other cb => c.ends.Allows (.callback cb)

instance decidableMayCallBack (c : Cnx) : ∀ cb, Decidable (c.MayCallBack cb)
  | .close _ => inferInstanceAs (Decidable (c.registered = true → c.owned = true))
  | .other cb => inferInstanceAs (Decidable (c.ends.Allows (.callback cb)))

/-- What may happen to a connection. -/
def Allows (c : Cnx) : Event → Prop
  | .callback cb => c.MayCallBack cb
  | .application ae => c.ends.Allows ae
  | _ => True

/-- **A connection that can go on.** -/
structure Safe (c : Cnx) : Prop where
  accounted : c.Accounted c.listed
  sane : c.ends.Sane

theorem release_sane (h : c.ends.Sane) : ∃ c', c.release = some c' ∧ c'.ends.Sane := by
  rw [release]
  split
  · obtain ⟨ends, hends, hsane⟩ := h.step (e := .drop) (h.allows rfl)
    exact ⟨_, by rw [hends]; rfl, hsane⟩
  · exact ⟨_, rfl, h⟩

theorem connectionCallback_sane (h : c.ends.Sane) {cb : Callback} (hok : c.MayCallBack cb) :
    ∃ c', c.connectionCallback cb = some c' ∧ c'.ends.Sane := by
  cases cb with
  | close codes =>
    obtain ⟨ends, hends, hsane⟩ := h.step (e := .close codes) (h.allows rfl)
    obtain ⟨c', hc', hsane'⟩ := release_sane (c := { c with ends, givenUp := c.givenUp + 1 }) hsane
    exact ⟨c', by rw [connectionCallback, hends]; exact hc', hsane'⟩
  | other cb =>
    obtain ⟨ends, hends, hsane⟩ := h.step hok
    exact ⟨_, by rw [connectionCallback, hends]; rfl, hsane⟩

/-- **A context that is listed can be polled**: it was not freed. -/
theorem Safe.retain (h : c.Safe) : ∃ c', c.retain = some c' ∧ c'.ends.Sane := by
  rw [Cnx.retain]
  split
  · rename_i hlisted
    -- the vector holds a reference, so the context was not freed
    have halive : c.freed = false := by
      refine h.accounted.alive ?_
      rw [h.accounted.strong, hlisted]
      exact Nat.lt_of_lt_of_le Nat.zero_lt_one (Nat.le_add_right _ _)
    obtain ⟨ends, hends, hsane⟩ := h.sane.step (e := .poll) (h.sane.allows rfl)
    have hstep : c.ends.step .poll = c.ends.stepContext .poll := by
      rw [freed, Bool.not_eq_false'] at halive
      simp [Connections.Ends.step, Connections.Ends.atContext, halive]
    obtain ⟨⟨a, ctx⟩, hpoll, hends⟩ := Option.bind_eq_some_iff.mp (hstep.symm.trans hends)
    obtain rfl := Option.some.inj hends
    rw [if_neg (by simp [halive]), hpoll]
    cases a with
    | notReady => exact ⟨_, rfl, hsane⟩
    | ready u =>
      obtain ⟨c', hc', hsane'⟩ := release_sane
        (c := { c with ends := { c.ends with ctx }, listed := false }) hsane
      exact ⟨c', hc', hsane'⟩
  · exact ⟨c, rfl, h.sane⟩

/-- **A step that is allowed does not panic.** -/
theorem Safe.step (h : c.Safe) {e : Event} (hok : c.Allows e) :
    ∃ c', c.step e = some c' ∧ c'.Safe := by
  -- the references are accounted for as soon as the step is taken
  suffices htotal : ∃ c', c.step e = some c' ∧ c'.ends.Sane by
    obtain ⟨c', hc', hsane⟩ := htotal
    refine ⟨c', hc', h.accounted.step (fun codes he => ?_) hc', hsane⟩
    subst he
    exact hok
  cases e with
  | retain => exact h.retain
  | callback cb =>
    simp only [Cnx.step]
    split
    · exact connectionCallback_sane h.sane hok
    · exact ⟨c, rfl, h.sane⟩
  | disconnect | delete =>
    refine ⟨_, rfl, ?_⟩
    split <;> exact h.sane
  | application ae =>
    simp only [Cnx.step]
    split
    · exact ⟨c, rfl, h.sane⟩
    · obtain ⟨ends, hends, hsane⟩ := h.sane.step hok
      exact ⟨_, by rw [hends]; rfl, hsane⟩

/-- A connection that was made by the application. -/
theorem new_safe : (new true).enlist.Safe where
  accounted := (new_accounted true).congr rfl rfl rfl rfl
  sane := Connections.Ends.new_sane true

/-- A connection that came in, after its first callback. -/
theorem incoming_safe {cb : Callback} (hok : (new false).MayCallBack cb) :
    ∃ c, (new false).connectionCallback cb = some c ∧ c.enlist.Safe := by
  obtain ⟨c, hc, hsane⟩ := connectionCallback_sane (Connections.Ends.new_sane false) hok
  have h := (new_accounted false).connectionCallback (fun _ _ => rfl) hc
  exact ⟨c, hc, h.congr rfl rfl rfl rfl, hsane⟩

/-- **What is still used was not freed**: not by the vector, and not by picoquic. -/
theorem Safe.freed_eq_false (h : c.Safe) (hused : c.listed = true ∨ c.registered = true) :
    c.freed = false := by
  rcases hused with hlisted | hregistered
  · refine Bool.eq_false_iff.mpr fun hf => ?_
    exact absurd (hlisted.symm.trans (h.accounted.freed_eq.mp hf).1) (by simp)
  · exact h.accounted.registered hregistered

end Cnx

/-! ### All connections -/

namespace CContext

variable {c c' : CContext} {k : CnxRef}

/-- What may happen to the connections. -/
def Allows (c : CContext) : Event → Prop
  | .callback k cb => ∀ cnx, c.cnxs[k]? = some cnx → cnx.MayCallBack cb
  | .incoming isGoingToClose cb => isGoingToClose = false → (Cnx.new false).MayCallBack cb
  | .application k ae => ∀ cnx, c.cnxs[k]? = some cnx → cnx.ends.Allows ae
  | _ => True

/-- What is to hold of a connection, if it is there. -/
instance decidableAtCnx {P : Cnx → Prop} [DecidablePred P] (c : CContext) (k : CnxRef) :
    Decidable (∀ cnx, c.cnxs[k]? = some cnx → P cnx) :=
  match h : c.cnxs[k]? with
  | none => isTrue fun _ hk => absurd hk (by simp)
  | some cnx =>
    decidable_of_iff (P cnx) ⟨fun hp _ hk => Option.some.inj hk ▸ hp, fun hp => hp cnx rfl⟩

instance decidableAllows (c : CContext) : ∀ e, Decidable (c.Allows e)
  | .callback k cb =>
    inferInstanceAs (Decidable (∀ cnx, c.cnxs[k]? = some cnx → cnx.MayCallBack cb))
  | .incoming isGoingToClose cb =>
    inferInstanceAs (Decidable (isGoingToClose = false → (Cnx.new false).MayCallBack cb))
  | .application k ae =>
    inferInstanceAs (Decidable (∀ cnx, c.cnxs[k]? = some cnx → cnx.ends.Allows ae))
  | .poll | .outgoing _ _ | .disconnect _ | .delete _ | .accept | .dropIncoming => isTrue trivial

/-- The connection that is made, if one is made, can be kept alive as it should. -/
def KeepsAlive (c : CContext) : Event → Prop
  | .incoming isGoingToClose _ =>
    isGoingToClose = false → KeepAliveFits c.checks c.serverKeepAliveInterval
  | .outgoing keepAliveInterval _ => KeepAliveFits c.checks keepAliveInterval
  | _ => True

/-- **Else the step panics.** -/
theorem keepsAlive_of_step {e : Event} (h : c.step e = some c') : c.KeepsAlive e := by
  cases e with
  | incoming isGoingToClose cb =>
    rintro rfl
    obtain ⟨keepAlive, hkeepAlive, -⟩ := Option.bind_eq_some_iff.mp h
    exact exists_createBuilder_iff.mp ⟨keepAlive, hkeepAlive⟩
  | outgoing keepAliveInterval waiting => exact (create_spec h).1
  | poll | callback | disconnect | delete | accept | dropIncoming | application => trivial

/-- **All connections can go on.** -/
def Safe (c : CContext) : Prop := ∀ cnx ∈ c.cnxs, cnx.Safe

theorem new_safe {checks : Bool} {interval : Option Duration} : (new checks interval).Safe :=
  fun _ h => absurd h List.not_mem_nil

namespace Safe

theorem push (h : c.Safe) {cnx : Cnx} (hcnx : cnx.enlist.Safe) : (c.push cnx).Safe := by
  intro x hx
  rcases List.mem_append.mp hx with hx | hx
  · exact h x hx
  · exact List.mem_singleton.mp hx ▸ hcnx

theorem atCnx (h : c.Safe) {ce : Cnx.Event} (hok : ∀ cnx, c.cnxs[k]? = some cnx → cnx.Allows ce) :
    ∃ c', c.atCnx k ce = some c' ∧ c'.Safe := by
  rw [CContext.atCnx]
  split
  · rename_i cnx hk
    obtain ⟨cnx', hcnx', hsafe⟩ := (h cnx (List.mem_of_getElem? hk)).step (hok cnx hk)
    refine ⟨_, by rw [hcnx']; rfl, fun x hx => ?_⟩
    rcases List.mem_or_eq_of_mem_set hx with hx | rfl
    · exact h x hx
    · exact hsafe
  · exact ⟨c, rfl, h⟩

/-- A `Connection` is dropped. -/
theorem dropConnection (h : c.Safe) (k : CnxRef) :
    ∃ c', c.atCnx k (.application .dropConnection) = some c' ∧ c'.Safe :=
  h.atCnx fun cnx hk => (h cnx (List.mem_of_getElem? hk)).sane.allows rfl

/-- The `Connection`s in `ks` are dropped. -/
theorem dropConnections {ks : List CnxRef} (h : c.Safe) :
    ∃ c', ks.foldlM (CContext.atCnx · · (.application .dropConnection)) c = some c' ∧ c'.Safe := by
  induction ks generalizing c with
  | nil => exact ⟨c, rfl, h⟩
  | cons k ks ih =>
    obtain ⟨c₁, hc₁, h₁⟩ := h.dropConnection k
    obtain ⟨c', hc', h'⟩ := ih h₁
    exact ⟨c', by rw [List.foldlM_cons, hc₁]; exact hc', h'⟩

/-- The vector is polled. -/
theorem poll (h : c.Safe) : ∃ c', c.poll = some c' ∧ c'.Safe := by
  have hstep : ∀ cnx ∈ c.cnxs, ∃ cnx', cnx.step .retain = some cnx' ∧ cnx'.Safe :=
    fun cnx hcnx => (h cnx hcnx).step trivial
  obtain ⟨cnxs, hcnxs⟩ := Each.exists_mapM fun cnx hcnx => (hstep cnx hcnx).imp fun _ h => h.1
  refine ⟨{ c with cnxs }, by rw [CContext.poll, hcnxs]; rfl, fun cnx' hcnx' => ?_⟩
  -- each of them has come from one that could go on
  obtain ⟨k, hk, rfl⟩ := List.mem_iff_getElem.mp hcnx'
  obtain ⟨cnx, hcnx, hretain⟩ := Each.of_mapM_getElem? hcnxs (List.getElem?_eq_getElem hk)
  obtain ⟨cnx₁, hstep₁, hsafe⟩ := hstep cnx (List.mem_of_getElem? hcnx)
  exact Option.some.inj (hstep₁.symm.trans hretain) ▸ hsafe

/-- **A step that is allowed does not panic.** -/
theorem step (h : c.Safe) {e : Event} (hok : c.Allows e) (hkeep : c.KeepsAlive e) :
    ∃ c', c.step e = some c' ∧ c'.Safe := by
  cases e with
  | poll => exact h.poll
  | callback k cb => exact h.atCnx hok
  | disconnect k => exact h.atCnx fun _ _ => trivial
  | delete k => exact h.atCnx fun _ _ => trivial
  | incoming isGoingToClose cb =>
    simp only [CContext.step, newConnectionCallback]
    split
    · exact ⟨c, rfl, h⟩
    · rename_i hgoing
      rw [Bool.not_eq_true] at hgoing
      obtain ⟨keepAlive, hkeepAlive⟩ := exists_createBuilder_iff.mpr (hkeep hgoing)
      obtain ⟨cnx, hcnx, hsafe⟩ := Cnx.incoming_safe (hok hgoing)
      have hpush := h.push hsafe
      rw [hkeepAlive, hcnx]
      cases hsend : c.sendCon.unboundedSend c.cnxs.length with
      | some sendCon =>
        exact ⟨{ c.push cnx with sendCon },
          by simp only [Option.bind_eq_bind, Option.bind_some], hpush⟩
      | none =>
        obtain ⟨c', hc', h'⟩ := hpush.dropConnection c.cnxs.length
        exact ⟨c', by simp only [Option.bind_eq_bind, Option.bind_some]; exact hc', h'⟩
  | outgoing keepAliveInterval waiting =>
    have hpush : (c.push (Cnx.new true)).Safe := h.push Cnx.new_safe
    obtain ⟨keepAlive, hkeepAlive⟩ := exists_createBuilder_iff.mpr hkeep
    simp only [CContext.step, create, hkeepAlive, Option.bind_eq_bind, Option.bind_some]
    split
    · exact ⟨_, rfl, hpush⟩
    · exact hpush.atCnx fun cnx hk =>
        (hpush cnx (List.mem_of_getElem? hk)).sane.allows rfl
  | accept => exact ⟨_, rfl, h⟩
  | dropIncoming =>
    exact dropConnections (c := { c with sendCon := c.sendCon.dropReceiver }) h
  | application k ae =>
    simp only [CContext.step]
    split
    · exact ⟨c, rfl, h⟩
    · exact h.atCnx hok

end Safe

end CContext

/-! ### The loop -/

namespace ContextInner

variable {c c' : ContextInner} {e : Event} {setup : Setup} {es : List Event}

/-- **The rules for picoquic and the application.** Picoquic calls back for a connection as
`Cnx.MayCallBack` has it, and prepares no packet that is longer than the buffer. The application
asks for no connection to an unspecified address, and for at most `2 ^ 62` streams of one
connection. -/
def Allows (c : ContextInner) : Event → Prop
  | .quic q => c.context.Allows q.toContext
  | .packetPrepared _ (.ok sendLen _) _ => sendLen ≤ c.buffer.length
  | .application (.newConnection addr _) => addr.ip.isUnspecified = false
  | .application (.connection k ae) => c.context.Allows (.application k ae)
  | _ => True

/-- Whether the rules are kept can be checked. -/
instance decidableAllows (c : ContextInner) : ∀ e, Decidable (c.Allows e)
  | .quic q => inferInstanceAs (Decidable (c.context.Allows q.toContext))
  | .packetPrepared _ (.ok sendLen _) _ => inferInstanceAs (Decidable (sendLen ≤ c.buffer.length))
  | .application (.newConnection addr _) =>
    inferInstanceAs (Decidable (addr.ip.isUnspecified = false))
  | .application (.connection k ae) =>
    inferInstanceAs (Decidable (c.context.Allows (.application k ae)))
  | .packetPrepared _ .error _ | .poll | .contexts | .request _ | .receive _
  | .incomingPacketReturns _ _ | .stateless _ | .flush _ | .due _ | .sleep _
  | .application .cloneHandle | .application .dropHandle | .application (.dropFuture _)
  | .application .pollContext | .application .dropContext => isTrue trivial

/-- The connection that the step makes, if it makes one, can be kept alive as it should. -/
def KeepsAlive (c : ContextInner) : Event → Prop
  | .request created => ∀ a ∈ c.attempts (.request created), c.succeeds a = true →
      KeepAliveFits c.context.checks c.clientKeepAliveInterval
  | .quic q => Event.possible (.quic q) c.phase = true → c.context.KeepsAlive q.toContext
  | _ => True

/-- **Else the step panics.** -/
theorem keepsAlive_of_step (h : c.step e = some c') : c.KeepsAlive e := by
  cases e with
  | request created =>
    intro a ha hs
    by_cases hp : c.phase = .requests
    · rw [step, if_pos (possible_request hp created)] at h
      rw [attempts_request hp] at ha
      cases hq : c.recvConnect.queue with
      | nil => exact absurd ha (by simp [hq])
      | cons r q =>
        rw [hq, List.head?_cons, Option.map_some, Option.toList_some] at ha
        obtain rfl := List.mem_singleton.mp ha
        obtain ⟨request, hr, hnew⟩ := (Option.any_eq_true _ _).mp hs
        rw [beq_iff_eq] at hnew
        obtain ⟨recvConnect, -, -, ⟨-, hc⟩ | ⟨hno, -⟩ | ⟨cnx, -, hfits, -⟩⟩ :=
          checkForNewConnectionRequest_cons hq hr created
        · exact absurd (hc.symm.trans h) (by simp)
        · exact absurd (hno.symm.trans hnew) (by simp)
        · exact hfits
    · rw [attempts, if_neg hp] at ha
      exact absurd ha List.not_mem_nil
  | quic q =>
    intro hpos
    rw [step, if_pos hpos] at h
    obtain ⟨context, hcontext, -⟩ := Option.bind_eq_some_iff.mp h
    exact CContext.keepsAlive_of_step hcontext
  | poll | contexts | receive | incomingPacketReturns | stateless | flush | due | packetPrepared
  | sleep | application => trivial

/-- **The loop can go on.** -/
structure Safe (c : ContextInner) : Prop where
  context : c.context.Safe
  pending : ∀ len addr, c.notSendLength = some (len, addr) → len ≤ c.buffer.length
  specified : ∀ request ∈ c.requests, request.addr.ip.isUnspecified = false

theorem new_safe : (new setup).Safe :=
  ⟨CContext.new_safe, fun _ _ h => absurd h (by simp [new]), fun _ h => absurd h List.not_mem_nil⟩

/-- The buffer does not get shorter. -/
theorem le_length_writeBuffer (c : ContextInner) (bytes : Bytes) :
    c.buffer.length ≤ (c.writeBuffer bytes).buffer.length := by
  have hlen : (c.writeBuffer bytes).buffer.length =
      bytes.length + (c.buffer.length - bytes.length) := by
    rw [writeBuffer, List.length_append, List.length_drop]
  omega

namespace Safe

/-- What waits to be sent, and what is asked for, is left alone. -/
theorem same (h : c.Safe) (hc : c'.context.Safe) (hb : c.buffer.length ≤ c'.buffer.length)
    (hn : c'.notSendLength = c.notSendLength) (hr : c'.requests = c.requests) : c'.Safe where
  context := hc
  pending := fun len addr hlen => (h.pending len addr (hn ▸ hlen)).trans hb
  specified := hr ▸ h.specified

/-- Only where the loop is has changed. -/
theorem moved (h : c.Safe) (hc : c'.context = c.context) (hb : c'.buffer = c.buffer)
    (hn : c'.notSendLength = c.notSendLength) (hr : c'.requests = c.requests) : c'.Safe :=
  h.same (hc ▸ h.context) (hb ▸ Nat.le_refl _) hn hr

/-- **The contexts take a step that is allowed**, and the function goes on from there. -/
theorem bind (h : c.Safe) {a : CContext.Event} (hok : c.context.Allows a)
    (hkeep : c.context.KeepsAlive a) {f : CContext → ContextInner}
    (hf : ∀ context, ContextInner.Safe { c with context } → (f context).Safe) :
    ∃ c', (c.context.step a >>= fun context => some (f context)) = some c' ∧ c'.Safe := by
  obtain ⟨context, hcontext, hsafe⟩ := h.context.step hok hkeep
  exact ⟨f context, by rw [hcontext]; rfl, hf context ⟨hsafe, h.pending, h.specified⟩⟩

theorem writeBuffer (h : c.Safe) (bytes : Bytes) : (c.writeBuffer bytes).Safe :=
  h.same h.context (c.le_length_writeBuffer bytes) rfl rfl

/-- **A datagram is within the buffer.** -/
theorem sendDataInBuffer (h : c.Safe) {len : ℕ} (hlen : len ≤ c.buffer.length) (addr : SocketAddr)
    (answer : SendAnswer) :
    ∃ sent c', c.sendDataInBuffer len addr answer = some (sent, c') ∧ c'.Safe := by
  rw [ContextInner.sendDataInBuffer, if_pos hlen]
  cases answer with
  | notReady =>
    refine ⟨false, _, rfl, h.context, fun len' addr' heq => ?_, h.specified⟩
    obtain ⟨rfl, -⟩ := Prod.mk.inj (Option.some.inj heq)
    exact hlen
  | sent | error => exact ⟨true, _, rfl, h.moved rfl rfl rfl rfl⟩

theorem flushPending (h : c.Safe) (answer : SendAnswer) :
    ∃ c', c.flushPending answer = some c' ∧ c'.Safe := by
  rw [ContextInner.flushPending]
  split
  · rename_i len addr hlen
    have h₁ : ContextInner.Safe { c with notSendLength := none } :=
      ⟨h.context, fun _ _ heq => absurd heq (by simp), h.specified⟩
    obtain ⟨sent, c', hc', h'⟩ := h₁.sendDataInBuffer (h.pending len addr hlen) addr answer
    exact ⟨c'.proceed sent, Option.bind_eq_some_iff.mpr ⟨(sent, c'), hc', rfl⟩,
      h'.moved rfl rfl rfl rfl⟩
  · exact ⟨_, rfl, h.moved rfl rfl rfl rfl⟩

theorem packetPrepared (h : c.Safe) (bytes : Bytes) {ret : Prepared}
    (hret : ∀ len addr, ret = .ok len addr → len ≤ c.buffer.length) (answer : SendAnswer) :
    ∃ c', c.packetPrepared bytes ret answer = some c' ∧ c'.Safe := by
  have h₁ := h.writeBuffer (bytes.take c.buffer.length)
  have hlonger := c.le_length_writeBuffer (bytes.take c.buffer.length)
  rw [ContextInner.packetPrepared]
  simp only
  split
  · rename_i len addr hpacket
    have hlen : len ≤ c.buffer.length := by
      cases ret with
      | error => exact absurd hpacket (by simp [Prepared.packet])
      | ok sendLen addr' =>
        rw [Prepared.packet] at hpacket
        split at hpacket
        · obtain ⟨rfl, rfl⟩ := Prod.mk.inj (Option.some.inj hpacket)
          exact hret _ _ rfl
        · exact absurd hpacket (by simp)
    have h₂ : ContextInner.Safe { c.writeBuffer (bytes.take c.buffer.length) with
        packets := c.packets ++ [Record.prepared
          (some ⟨(c.writeBuffer (bytes.take c.buffer.length)).buffer.take len, addr⟩)] } :=
      h₁.moved rfl rfl rfl rfl
    obtain ⟨sent, c', hc', h'⟩ := h₂.sendDataInBuffer (hlen.trans hlonger) addr answer
    exact ⟨c'.proceed sent, Option.bind_eq_some_iff.mpr ⟨(sent, c'), hc', rfl⟩,
      h'.moved rfl rfl rfl rfl⟩
  · exact ⟨_, rfl, h₁.moved rfl rfl rfl rfl⟩

/-- A request is told something, or its future is dropped. -/
theorem specified_set (h : c.Safe) {r : ConnectRef} {request request' : ConnectRequest}
    (hr : c.requests[r]? = some request) (ha : request'.addr = request.addr) :
    ∀ x ∈ c.requests.set r request', x.addr.ip.isUnspecified = false := by
  intro x hx
  rcases List.mem_or_eq_of_mem_set hx with hx | rfl
  · exact h.specified x hx
  · rw [ha]
    exact h.specified request (List.mem_of_getElem? hr)

/-- **A round takes a request**, which is not for an unspecified address. -/
theorem checkForNewConnectionRequest (h : c.Safe) (hp : c.phase = .requests) {created : Bool}
    (hkeep : c.KeepsAlive (.request created)) :
    ∃ c', c.checkForNewConnectionRequest created = some c' ∧ c'.Safe := by
  cases hq : c.recvConnect.queue with
  | nil =>
    rw [checkForNewConnectionRequest_nil hq]
    exact ⟨_, rfl, h.moved rfl rfl rfl rfl⟩
  | cons r q =>
    rw [ContextInner.checkForNewConnectionRequest, Chan.poll_of_cons hq]
    simp only
    cases hr : c.requests[r]? with
    | none => exact ⟨_, rfl, h.moved rfl rfl rfl rfl⟩
    | some request =>
      simp only
      cases hnew : request.connectionNew created with
      | none =>
        -- only an unspecified address panics
        have hbad := connectionNew_eq_none.mp hnew
        rw [h.specified request (List.mem_of_getElem? hr)] at hbad
        exact absurd hbad Bool.false_ne_true
      | some succeeds =>
        cases succeeds with
        | false => exact ⟨_, rfl, h.context, h.pending, h.specified_set hr rfl⟩
        | true =>
          have hattempt : (r, created) ∈ c.attempts (.request created) := by
            rw [attempts_request hp, hq]
            exact List.mem_singleton_self _
          have hfits := hkeep _ hattempt (by rw [succeeds, hr, Option.any_some, hnew]; rfl)
          exact h.bind (a := .outgoing c.clientKeepAliveInterval request.waiting) trivial hfits
            fun _ h₁ => ⟨h₁.context, h₁.pending, h₁.specified_set hr rfl⟩

/-- **Whatever the application does.** -/
theorem stepApplication (h : c.Safe) {call : Call} (hok : c.Allows (.application call)) :
    ∃ c', c.stepApplication call = some c' ∧ c'.Safe := by
  cases call with
  | newConnection addr serverName =>
    refine ⟨_, rfl, ?_⟩
    split
    · have hrequests : ∀ outcome, ∀ request ∈ c.requests ++
          [({ addr, serverName, waiting := true, outcome } : ConnectRequest)],
          request.addr.ip.isUnspecified = false := fun outcome request hmem => by
        rcases List.mem_append.mp hmem with hmem | hmem
        · exact h.specified request hmem
        · exact List.mem_singleton.mp hmem ▸ hok
      rw [newConnection]
      cases c.recvConnect.unboundedSend c.requests.length <;>
        exact ⟨h.context, h.pending, hrequests _⟩
    · exact h
  | cloneHandle | dropHandle =>
    refine ⟨_, rfl, ?_⟩
    split
    · exact h.moved rfl rfl rfl rfl
    · exact h
  | dropFuture r =>
    simp only [ContextInner.stepApplication]
    split
    · exact ⟨c, rfl, h⟩
    · rename_i request hr
      split
      · rename_i k hk
        refine h.bind (a := .application k .dropCreated) (fun cnx hcnx => ?_) trivial
          fun _ h₁ => ⟨h₁.context, h₁.pending, h₁.specified_set hr rfl⟩
        exact (h.context cnx (List.mem_of_getElem? hcnx)).sane.allows rfl
      · exact ⟨_, rfl, h.context, h.pending, h.specified_set hr rfl⟩
  | pollContext =>
    simp only [ContextInner.stepApplication]
    split
    · split
      · exact h.bind (a := .accept) trivial trivial fun _ h₁ => h₁.moved rfl rfl rfl rfl
      · exact ⟨_, rfl, h.moved rfl rfl rfl rfl⟩
    · exact ⟨c, rfl, h⟩
  | dropContext =>
    simp only [ContextInner.stepApplication]
    split
    · exact h.bind (a := .dropIncoming) trivial trivial fun _ h₁ => h₁.moved rfl rfl rfl rfl
    · exact ⟨c, rfl, h⟩
  | connection k ae => exact h.bind (a := .application k ae) hok trivial fun _ h₁ => h₁

/-- The event loop ends. -/
theorem drop (h : c.Safe) : c.drop.Safe := by
  refine ⟨h.context, h.pending, fun request hmem => ?_⟩
  obtain ⟨x, hx, rfl⟩ := List.mem_map.mp hmem
  exact h.specified x hx

/-- A round of `send_connection_packets` begins. -/
theorem nextConnection (h : c.Safe) (d : Due) : ∃ c', c.nextConnection d = some c' ∧ c'.Safe := by
  cases d with
  | none | refused disconnected => exact ⟨_, rfl, h.moved rfl rfl rfl rfl⟩
  | cnx k =>
    rw [ContextInner.nextConnection]
    split
    · split
      · exact ⟨c, rfl, h⟩
      · split
        · exact h.bind (a := .delete k) trivial trivial fun _ h₁ => h₁.moved rfl rfl rfl rfl
        · exact ⟨_, rfl, h.moved rfl rfl rfl rfl⟩
    · exact ⟨c, rfl, h⟩

/-- **A step that is allowed does not panic.** -/
theorem step (h : c.Safe) (hok : c.Allows e) (hkeep : c.KeepsAlive e) :
    ∃ c', c.step e = some c' ∧ c'.Safe := by
  rw [ContextInner.step]
  split
  · rename_i hpos
    cases e with
    | poll => exact ⟨_, rfl, h.moved rfl rfl rfl rfl⟩
    | contexts =>
      refine h.bind (a := .poll) trivial trivial fun context h₁ => ?_
      split
      · exact h₁.drop
      · exact h₁.moved rfl rfl rfl rfl
    | request created => exact h.checkForNewConnectionRequest (phase_of_possible hpos rfl) hkeep
    | receive r =>
      refine ⟨_, rfl, ?_⟩
      cases r with
      | datagram bytes => exact (h.writeBuffer (bytes.take c.buffer.length)).moved rfl rfl rfl rfl
      | error | notReady => exact h.moved rfl rfl rfl rfl
    | incomingPacketReturns bytes stateless =>
      refine ⟨_, rfl, ?_⟩
      rw [incomingPacketReturns]
      split
      · rename_i len hp
        exact (h.writeBuffer (bytes.take len)).moved rfl rfl rfl rfl
      · exact h
    | stateless answer =>
      refine ⟨_, rfl, ?_⟩
      rcases sendStatelessPackets_spec c answer with ⟨-, hc⟩ |
        ⟨packet, stateless, phase, -, hc, -⟩ <;> rw [hc] <;> exact h.moved rfl rfl rfl rfl
    | flush answer => exact h.flushPending answer
    | due d => exact h.nextConnection d
    | packetPrepared bytes ret answer =>
      refine h.packetPrepared bytes ?_ answer
      rintro len addr rfl
      exact hok
    | sleep nextWake =>
      refine ⟨_, rfl, ?_⟩
      rw [sleep]
      split
      · exact h.moved rfl rfl rfl rfl
      · split <;> exact h.moved rfl rfl rfl rfl
    | quic q => exact h.bind (a := q.toContext) hok (hkeep hpos) fun _ h₁ => h₁
    | application call => exact h.stepApplication hok
  · exact ⟨c, rfl, h⟩

end Safe

/-- A connection is made and another one comes in; a packet is sent for the first one, which is
then closed, and polled. -/
def connectAndClose : List Event := [.application (.newConnection ⟨.v4 1, 443⟩ "server"),
  .poll, .contexts, .request true, .request true, .receive (.datagram [0]),
  .quic (.incoming false (.other .almostReady)), .incomingPacketReturns [0] [],
  .receive .notReady, .stateless .sent, .flush .sent, .due (.cnx 0),
  .packetPrepared [1, 2] (.ok 2 ⟨.v4 1, 443⟩) .notReady, .sleep (.some true), .poll, .contexts,
  .request true, .receive (.datagram [0]), .quic (.callback 0 (.close ⟨0, 0, fun _ => false⟩)),
  .incomingPacketReturns [0] [], .receive .notReady, .stateless .sent, .flush .sent, .due .none,
  .sleep .none, .contexts]

end ContextInner

end Endpoint

end PicoquicRs
