import PicoquicRs.Connections.FoundError

/-!
# Where a `Connection` is

There is one `Connection` for each connection, and it cannot be cloned. An outgoing one is held
back by the context until the connection is ready, and then goes through the channel of its
`NewConnectionFuture`; an incoming one is handed out at once. In every state of every run it is
at exactly one `PicoquicRs.Connections.Place`, and it only goes forward
(`PicoquicRs.Connections.Ends.Placed.step`): it is never handed out twice, and what was dropped
does not come back.
-/

namespace PicoquicRs

namespace Connections

open Futures

/-- **Where a `Connection` is.** -/
inductive Place where
  /-- In `wait_for_ready_state`. -/
  | heldBack
  /-- In the channel of its `NewConnectionFuture`. -/
  | underWay
  /-- The application has it. -/
  | taken
  /-- It was dropped. -/
  | dropped
  deriving DecidableEq, Repr

/-- How far a `Connection` has come. -/
def Place.rank : Place → ℕ
  | heldBack => 0
  | underWay => 1
  | taken => 2
  | dropped => 3

namespace Context

variable {c c' c'' : Context}

/-- **The `Connection` is not moved.** -/
structure Holds (c c' : Context) : Prop where
  wait : c'.waitForReadyState = c.waitForReadyState
  value : c'.created.value = c.created.value
  isOpen : c'.sendMsg.isOpen = c.sendMsg.isOpen

theorem Holds.refl (c : Context) : c.Holds c := ⟨rfl, rfl, rfl⟩

theorem Holds.trans (h : c.Holds c') (h' : c'.Holds c'') : c.Holds c'' where
  wait := h'.wait.trans h.wait
  value := h'.value.trans h.value
  isOpen := h'.isOpen.trans h.isOpen

/-- A message is sent. -/
theorem Holds.send (msg : Message) (hw : c'.waitForReadyState = c.waitForReadyState)
    (hc : c'.created = c.created)
    (hs : c'.sendMsg = if c.sendMsg.isOpen then c.sendMsg.push msg else c.sendMsg) :
    c.Holds c' where
  wait := hw
  value := by rw [hc]
  isOpen := by rw [hs]; split <;> rfl

theorem atStream_holds {k : StreamRef} {e : Streams.Event} (h : c.atStream k e = some c') :
    c.Holds c' := by
  obtain ⟨streams, rfl, -⟩ := atStream_spec h
  exact ⟨rfl, rfl, rfl⟩

theorem handleStreamCallback_holds {id : Id} {cb : Streams.Callback}
    (h : c.handleStreamCallback id cb = some c') : c.Holds c' := by
  rcases handleStreamCallback_spec h with ⟨-, streams, rfl, -⟩ | ⟨-, streams, rfl, -⟩
  · exact ⟨rfl, rfl, rfl⟩
  · exact .send (.newStream c.streams.length) rfl rfl rfl

theorem close_holds (h : c.close = some c') : c.Holds c' := by
  obtain ⟨streams, rfl, -⟩ := close_spec h
  exact .send .close rfl rfl rfl

theorem poll_holds {r : Async Unit} (h : c.poll = some (r, c')) : c.Holds c' := by
  rcases poll_spec h with ⟨-, rfl⟩ | ⟨-, streams, c₂, -, hc₂, ⟨-, hclose⟩ | ⟨-, rfl⟩⟩
  · exact .refl _
  · obtain ⟨hsend, hcreated, hwait, -⟩ := Ends.checkCreateStreamRequests_frame hc₂
    have h₂ : c.Holds c₂ := ⟨hwait, by rw [hcreated], by rw [hsend]⟩
    obtain ⟨hw, hv, ho⟩ := close_holds hclose
    exact h₂.trans ⟨hw, hv, ho⟩
  · obtain ⟨hsend, hcreated, hwait, -⟩ := Ends.checkCreateStreamRequests_frame hc₂
    exact ⟨hwait, by rw [← congrArg Oneshot.value hcreated], by rw [← congrArg Chan.isOpen hsend]⟩

theorem pollConnection_holds (c : Context) : c.Holds c.pollConnection.2 := by
  have hpoll : c.pollConnection.2 = { c with sendMsg := c.sendMsg.poll.2 } := by
    obtain ⟨a, sendMsg, hp⟩ : ∃ a sendMsg, c.sendMsg.poll = (a, sendMsg) := ⟨_, _, rfl⟩
    rw [pollConnection, hp]
    cases a with
    | notReady => rfl
    | ready msg => cases msg <;> [rfl; (rename_i msg; cases msg <;> rfl)]
  rw [hpoll]
  exact ⟨rfl, rfl, Chan.poll_isOpen⟩

/-- **The `Connection` is dropped.** -/
theorem dropConnection_places (h : c.dropConnection = some c') :
    c'.waitForReadyState = c.waitForReadyState ∧ c'.created.value = c.created.value ∧
      c'.sendMsg.isOpen = false := by
  obtain ⟨streams, rfl, -⟩ := dropConnection_spec h
  exact ⟨rfl, rfl, rfl⟩

end Context

namespace Ends

open Context

variable {p p' : Ends} {e : Event} {pl : Place}

/-- **The `Connection` is there**, going by what each place can tell. -/
def isAt (p : Ends) : Place → Bool
  | .heldBack => p.ctx.waitForReadyState
  | .underWay => p.ctx.created.value.any Except.isOk
  | .taken => p.connection
  | .dropped => !p.ctx.sendMsg.isOpen

/-- **The `Connection` is there, and nowhere else.** -/
def Placed (p : Ends) (pl : Place) : Prop := ∀ pl', p.isAt pl' = (pl' == pl)

theorem placed_iff : p.Placed pl ↔ p.ctx.waitForReadyState = (.heldBack == pl) ∧
    p.ctx.created.value.any Except.isOk = (.underWay == pl) ∧ p.connection = (.taken == pl) ∧
      (!p.ctx.sendMsg.isOpen) = (.dropped == pl) :=
  ⟨fun h => ⟨h .heldBack, h .underWay, h .taken, h .dropped⟩, fun h pl' => by
    obtain ⟨h₁, h₂, h₃, h₄⟩ := h
    cases pl' <;> assumption⟩

namespace Placed

/-- The `Connection` stays where it is. -/
theorem holds (h : p.Placed pl) (hc : p.ctx.Holds p'.ctx) (hcon : p'.connection = p.connection) :
    p'.Placed pl := by
  rw [placed_iff] at h ⊢
  rw [hc.wait, hc.value, hc.isOpen, hcon]
  exact h

/-- The `Connection` is at a place that shows it. -/
theorem eq_of_isAt {pl' : Place} (h : p.Placed pl) (hat : p.isAt pl' = true) : pl = pl' := by
  rw [h] at hat
  exact (beq_iff_eq.mp hat).symm

end Placed

theorem new_placed (isClient : Bool) :
    (new isClient).Placed (if isClient then .heldBack else .taken) := by
  cases isClient <;> intro pl <;> cases pl <;> rfl

/-- The future is polled: what was in the channel is out. -/
theorem stepApplication_pollCreated (h : p.stepApplication .pollCreated = some p') :
    ∃ created connection opened, p' = { p with
        ctx := { p.ctx with created }, connection, opened } ∧ created.value = none ∧
      connection = (p.connection || p.ctx.created.value.any Except.isOk) := by
  simp only [stepApplication, pollCreated, Oneshot.poll] at h
  cases hv : p.ctx.created.value with
  | none =>
    simp only [hv] at h
    cases hp : p.ctx.created.pending with
    | true =>
      simp only [hp, if_true] at h
      exact ⟨_, _, _, (Option.some.inj h).symm, rfl, by simp⟩
    | false =>
      simp only [hp, Bool.false_eq_true, if_false] at h
      exact ⟨_, _, _, (Option.some.inj h).symm, rfl, by simp⟩
  | some a =>
    simp only [hv] at h
    refine ⟨_, _, _, (Option.some.inj h).symm, rfl, ?_⟩
    cases a with
    | ok u => exact (Bool.or_true _).symm
    | error err => exact (Bool.or_false _).symm

/-- **The application** takes the `Connection` out of the channel, or drops it. -/
theorem stepApplication_placed (h : p.Placed pl) (hstep : p.stepApplication e = some p') :
    ∃ pl', p'.Placed pl' ∧ pl.rank ≤ pl'.rank := by
  have hholds : p.ctx.Holds p'.ctx → p'.connection = p.connection →
      ∃ pl', p'.Placed pl' ∧ pl.rank ≤ pl'.rank := fun hc hcon =>
    ⟨pl, h.holds hc hcon, Nat.le_refl _⟩
  have hvoid : some p = some p' → ∃ pl', p'.Placed pl' ∧ pl.rank ≤ pl'.rank := fun hp => by
    obtain rfl := Option.some.inj hp
    exact hholds (.refl _) rfl
  -- what is dropped is at no other place
  have hdropped : p'.ctx.waitForReadyState = false → p'.ctx.created.value.any Except.isOk = false →
      p'.connection = false → p'.ctx.sendMsg.isOpen = false →
      ∃ pl', p'.Placed pl' ∧ pl.rank ≤ pl'.rank := fun hw hv hcon ho => by
    refine ⟨.dropped, placed_iff.mpr ⟨hw, hv, hcon, by rw [ho]; rfl⟩, ?_⟩
    cases pl <;> decide
  obtain ⟨hwait, hvalue, hcon, hopen⟩ := placed_iff.mp h
  cases e with
  | newStream stype =>
    simp only [stepApplication] at hstep
    split at hstep
    · obtain rfl := Option.some.inj hstep
      refine hholds ?_ rfl
      rcases newStreamHandle_spec p.ctx stype with ⟨-, hc⟩ | ⟨-, hc⟩ <;> rw [hc] <;>
        exact ⟨rfl, rfl, rfl⟩
    · exact hvoid hstep
  | cloneHandle | dropHandle =>
    simp only [stepApplication] at hstep
    split at hstep
    · obtain rfl := Option.some.inj hstep
      exact hholds ⟨rfl, rfl, rfl⟩ rfl
    · exact hvoid hstep
  | pollRequest r =>
    obtain ⟨answers, hc, -⟩ := pollRequest_frame p.ctx r
    obtain rfl := Option.some.inj hstep
    refine hholds ?_ rfl
    change p.ctx.Holds (p.ctx.pollRequest r).2
    rw [hc]
    exact ⟨rfl, rfl, rfl⟩
  | dropRequest r =>
    obtain ⟨c, hc, hstep⟩ := Option.bind_eq_some_iff.mp hstep
    obtain rfl := Option.some.inj hstep
    refine hholds ?_ rfl
    simp only [dropRequest] at hc
    split at hc
    · obtain ⟨hw, hv, ho⟩ := atStream_holds hc
      exact ⟨hw, hv, ho⟩
    · obtain rfl := Option.some.inj hc
      exact ⟨rfl, rfl, rfl⟩
  | pollCreated =>
    obtain ⟨created, connection, opened, rfl, hnone, hcon'⟩ := stepApplication_pollCreated hstep
    cases hv : p.ctx.created.value.any Except.isOk with
    | true =>
      obtain rfl : pl = .underWay := h.eq_of_isAt hv
      refine ⟨.taken, placed_iff.mpr ⟨hwait, ?_, ?_, hopen⟩, by decide⟩
      · exact (congrArg (Option.any Except.isOk) hnone).trans rfl
      · exact hcon'.trans (by rw [hv, Bool.or_true]; rfl)
    | false =>
      refine ⟨pl, placed_iff.mpr ⟨hwait, ?_, ?_, hopen⟩, Nat.le_refl _⟩
      · rw [← hvalue, hv]
        exact congrArg (Option.any Except.isOk) hnone
      · rw [← hcon, hcon', hv, Bool.or_false]
  | dropCreated =>
    obtain ⟨c, hc, hstep⟩ := Option.bind_eq_some_iff.mp hstep
    obtain rfl := Option.some.inj hstep
    simp only [dropCreated] at hc
    split at hc
    · rename_i hv
      obtain rfl : pl = .underWay := h.eq_of_isAt (by rw [isAt, hv]; rfl)
      obtain ⟨hw, hv', ho⟩ := dropConnection_places hc
      exact hdropped (hw.trans hwait) (by rw [hv']; rfl) hcon ho
    · rename_i hv
      obtain rfl := Option.some.inj hc
      refine ⟨pl, placed_iff.mpr ⟨hwait, ?_, hcon, hopen⟩, Nat.le_refl _⟩
      rw [← hvalue]
      cases hval : p.ctx.created.value with
      | none => rfl
      | some a =>
        cases a with
        | ok u => exact absurd hval (hv ·)
        | error err => rfl
  | pollConnection =>
    simp only [stepApplication] at hstep
    split at hstep
    · obtain rfl := Option.some.inj hstep
      exact hholds (pollConnection_holds p.ctx) rfl
    · exact hvoid hstep
  | dropConnection =>
    simp only [stepApplication] at hstep
    split at hstep
    · rename_i hat
      obtain ⟨c, hc, hstep⟩ := Option.bind_eq_some_iff.mp hstep
      obtain rfl := Option.some.inj hstep
      obtain rfl : pl = .taken := h.eq_of_isAt hat
      obtain ⟨hw, hv, ho⟩ := dropConnection_places hc
      exact hdropped (hw.trans hwait) (by rw [hv]; exact hvalue) rfl ho
    · exact hvoid hstep
  | closeImmediately =>
    simp only [stepApplication] at hstep
    split at hstep
    · rename_i hat
      obtain ⟨c, hc, hstep⟩ := Option.bind_eq_some_iff.mp hstep
      obtain rfl := Option.some.inj hstep
      obtain rfl : pl = .taken := h.eq_of_isAt hat
      obtain ⟨hw, hv, ho⟩ := dropConnection_places hc
      exact hdropped (hw.trans hwait) (by rw [hv]; exact hvalue) rfl ho
    · exact hvoid hstep
  | stream k e =>
    simp only [stepApplication] at hstep
    split at hstep
    · obtain ⟨c, hc, hstep⟩ := Option.bind_eq_some_iff.mp hstep
      obtain rfl := Option.some.inj hstep
      exact hholds (atStream_holds hc) rfl
    · exact hvoid hstep
  | _ => exact hvoid hstep

/-- **The context** lets the `Connection` go when it is ready, or drops it. -/
theorem stepContext_placed (h : p.Placed pl) (hstep : p.stepContext e = some p') :
    ∃ pl', p'.Placed pl' ∧ pl.rank ≤ pl'.rank := by
  have hholds : p.ctx.Holds p'.ctx → p'.connection = p.connection →
      ∃ pl', p'.Placed pl' ∧ pl.rank ≤ pl'.rank := fun hc hcon =>
    ⟨pl, h.holds hc hcon, Nat.le_refl _⟩
  obtain ⟨hwait, hvalue, hcon, hopen⟩ := placed_iff.mp h
  -- a `Connection` that was held back is dropped
  have hdropped : p.ctx.waitForReadyState = true → p'.ctx.waitForReadyState = false →
      p'.ctx.created.value.any Except.isOk = false → p'.connection = p.connection →
      p'.ctx.sendMsg.isOpen = false → ∃ pl', p'.Placed pl' ∧ pl.rank ≤ pl'.rank :=
    fun hheld hw hv hcon' ho => by
      obtain rfl : pl = .heldBack := h.eq_of_isAt hheld
      exact ⟨.dropped, placed_iff.mpr ⟨hw, hv, hcon'.trans hcon, by rw [ho]; rfl⟩, by decide⟩
  cases e with
  | callback cb =>
    obtain ⟨c, hc, hstep⟩ := Option.bind_eq_some_iff.mp hstep
    obtain rfl := Option.some.inj hstep
    cases cb with
    | almostReady =>
      rw [handleCallback] at hc
      split at hc
      · rename_i hheld
        obtain ⟨-, c₁, rfl, ⟨hr, rfl⟩ | ⟨hr, hdrop⟩⟩ := processWaitForReadyState_spec hc
        · obtain rfl : pl = .heldBack := h.eq_of_isAt hheld
          refine ⟨.underWay, placed_iff.mpr ⟨rfl, ?_, hcon, hopen⟩, by decide⟩
          change (p.ctx.created.send (.ok ())).value.any Except.isOk = _
          rw [Oneshot.send, hr]
          rfl
        · obtain ⟨hw, hv, ho⟩ := dropConnection_places hdrop
          refine hdropped hheld hw ?_ rfl ho
          rw [hv, Oneshot.send, hr]
          rfl
      · obtain rfl := Option.some.inj hc
        exact hholds (.refl _) rfl
    | stream id cb =>
      rw [handleCallback] at hc
      split at hc
      · exact hholds (handleStreamCallback_holds hc) rfl
      · obtain rfl := Option.some.inj hc
        exact hholds (.refl _) rfl
  | close codes =>
    obtain ⟨c, hc, hstep⟩ := Option.bind_eq_some_iff.mp hstep
    obtain rfl := Option.some.inj hstep
    obtain ⟨c₁, hc₁, hc⟩ := Option.bind_eq_some_iff.mp hc
    have hclose := close_holds hc
    cases herr : codes.error.1 with
    | none =>
      obtain rfl := checkAndHandleError_none herr hc₁
      obtain ⟨hw, hv, ho⟩ := hclose
      exact hholds ⟨hw, hv, ho⟩ rfl
    | some err =>
      obtain ⟨streams, chan, c₂, -, -, -, rfl, ⟨hheld, hdrop⟩ | ⟨hheld, rfl⟩⟩ :=
        checkAndHandleError_found herr hc₁
      · obtain ⟨hw, hv, ho⟩ := dropConnection_places hdrop
        refine hdropped hheld (hclose.wait.trans hw) ?_ rfl (hclose.isOpen.trans ho)
        rw [hclose.value, hv, Oneshot.send]
        cases p.ctx.created.receiver <;> rfl
      · refine hholds (Holds.trans ?_ hclose) rfl
        exact .send (.error err) rfl rfl rfl
  | poll =>
    obtain ⟨⟨r, c⟩, hc, hstep⟩ := Option.bind_eq_some_iff.mp hstep
    obtain rfl := Option.some.inj hstep
    exact hholds (poll_holds hc) rfl
  | drop =>
    obtain ⟨c, hc, hstep⟩ := Option.bind_eq_some_iff.mp hstep
    obtain rfl := Option.some.inj hstep
    obtain ⟨streams, c₁, -, ⟨hheld, hdrop⟩ | ⟨hheld, rfl⟩, rfl⟩ := drop_spec hc
    · obtain ⟨hw, hv, ho⟩ := dropConnection_places hdrop
      obtain rfl : pl = .heldBack := h.eq_of_isAt hheld
      refine hdropped hheld hw ?_ rfl ho
      change c₁.created.value.any Except.isOk = false
      rw [hv]
      exact hvalue
    · exact hholds ⟨rfl, rfl, rfl⟩ rfl
  | _ =>
    obtain rfl := Option.some.inj hstep
    exact hholds (.refl _) rfl

/-- **A step moves the `Connection` forward**, if at all. -/
theorem Placed.step (h : p.Placed pl) (hstep : p.step e = some p') :
    ∃ pl', p'.Placed pl' ∧ pl.rank ≤ pl'.rank := by
  rw [Ends.step] at hstep
  split at hstep
  · split at hstep
    · exact stepContext_placed h hstep
    · obtain rfl := Option.some.inj hstep
      exact ⟨pl, h, Nat.le_refl _⟩
  · exact stepApplication_placed h hstep

/-- **And so does a run.** -/
theorem Placed.run {es : List Event} (h : p.Placed pl) (hrun : p.run es = some p') :
    ∃ pl', p'.Placed pl' ∧ pl.rank ≤ pl'.rank := by
  refine Trace.run_keeps (P := fun p' : Ends => ∃ pl', p'.Placed pl' ∧ pl.rank ≤ pl'.rank)
    (fun p e _ p' h hstep => ?_) ⟨pl, h, Nat.le_refl _⟩ hrun
  obtain ⟨pl₁, h₁, hle⟩ := h
  obtain ⟨pl₂, h₂, hle'⟩ := h₁.step hstep
  exact ⟨pl₂, h₂, hle.trans hle'⟩

end Ends

end Connections

end PicoquicRs
