import PicoquicRs.Endpoint.Steps

/-!
# Who holds the context of a connection

`connection_callback` makes an `Arc` of the raw pointer it is given, and forgets it
again unless the connection closes. The reference of picoquic is thus given up by a
close – by every close, while the callback stays registered until the context is
dropped. As long as no second close comes, the strong count is the number of holders
(`PicoquicRs.Endpoint.CContext.references_are_accounted`).
-/

namespace PicoquicRs

namespace Endpoint

open Time (Duration)

namespace Cnx

variable {c c' : Cnx} {held : Bool}

/-- **The references are accounted for**: one is held on the side of the event loop, if
at all, and one by picoquic until it gives it up. -/
structure Accounted (c : Cnx) (held : Bool) : Prop where
  strong : c.strong = held.toNat + c.owned.toNat
  givenUp : c.givenUp ≤ 1
  freed : c.freed = true ↔ c.strong = 0
  registered : c.registered = true → c.freed = false

/-- The caller of `Context::new` holds the other reference. -/
theorem new_accounted (isClient : Bool) : (new isClient).Accounted true where
  strong := rfl
  givenUp := Nat.zero_le 1
  freed := by simp [freed, new, Connections.new]
  registered := fun _ => rfl

namespace Accounted

theorem freed_eq (h : c.Accounted held) :
    c.freed = true ↔ held = false ∧ c.owned = false := by
  rw [h.freed, h.strong]
  cases held <;> cases c.owned <;> simp

/-- Nothing else is looked at. -/
theorem congr (h : c.Accounted held) (hs : c'.strong = c.strong) (hg : c'.givenUp = c.givenUp)
    (hf : c'.freed = c.freed) (hr : c'.registered = c.registered) : c'.Accounted held where
  strong := by rw [hs, h.strong, owned, owned, hg]
  givenUp := hg ▸ h.givenUp
  freed := by rw [hf, hs, h.freed]
  registered := by
    rw [hr, hf]
    exact h.registered

/-- While somebody holds the context it is not freed. -/
theorem alive (h : c.Accounted held) (hpos : 0 < c.strong) : c.freed = false :=
  Bool.eq_false_iff.mpr fun hf => Nat.ne_of_gt hpos (h.freed.mp hf)

/-- **A holder drops its reference.** -/
theorem of_release (hr : c.release = some c') (ha : c.freed = false) (hg : c.givenUp ≤ 1)
    (hs : c.strong = held.toNat + c.owned.toNat + 1) : c'.Accounted held := by
  obtain ⟨hs', hf, hreg⟩ := release_spec hr ha (by omega)
  have hg' := (release_frame hr).2.1
  refine ⟨?_, hg' ▸ hg, hf, hreg⟩
  rw [owned, hg', ← owned]
  omega

/-- **A callback keeps the account**, unless it is a second close. -/
theorem connectionCallback (h : c.Accounted held) {cb : Callback}
    (hown : ∀ codes, cb = .close codes → c.owned = true)
    (hc : c.connectionCallback cb = some c') : c'.Accounted held := by
  cases cb with
  | close codes =>
    obtain ⟨ends, hends, hc⟩ := Option.bind_eq_some_iff.mp hc
    have hown := hown codes rfl
    have hstrong := h.strong
    rw [hown, Bool.toNat_true] at hstrong
    have hfreed : ends.alive = c.ends.alive := Connections.Ends.step_alive hends rfl
    have hzero : c.givenUp = 0 := by simpa [owned] using hown
    refine of_release hc ?_ ?_ ?_
    · exact (congrArg not hfreed).trans (h.alive (by omega))
    · change c.givenUp + 1 ≤ 1
      omega
    · exact hstrong
  | other cb =>
    obtain ⟨ends, hends, hc⟩ := Option.bind_eq_some_iff.mp hc
    obtain rfl := Option.some.inj hc
    exact h.congr rfl rfl (congrArg not (Connections.Ends.step_alive hends rfl)) rfl

/-- **Polling keeps the account.** -/
theorem retain (h : c.Accounted c.listed) (hc : c.retain = some c') : c'.Accounted c'.listed := by
  rcases retain_spec hc with ⟨-, rfl⟩ | ⟨a, ctx, hl, hf, -, ⟨-, rfl⟩ | ⟨-, hc⟩⟩
  · exact h
  · exact h.congr rfl rfl rfl rfl
  · have hstrong := h.strong
    rw [hl, Bool.toNat_true, Nat.add_comm] at hstrong
    rw [(release_frame hc).1]
    exact of_release hc hf h.givenUp (hstrong.trans (by simp [owned]))

/-- **Every step of a connection keeps the account**, unless it is a second close. -/
theorem step (h : c.Accounted c.listed) {e : Event}
    (hown : ∀ codes, e = .callback (.close codes) → c.registered = true → c.owned = true)
    (hc : c.step e = some c') : c'.Accounted c'.listed := by
  have hvoid : some c = some c' → c'.Accounted c'.listed := fun hc => by
    obtain rfl := Option.some.inj hc
    exact h
  cases e with
  | retain => exact h.retain hc
  | callback cb =>
    simp only [Cnx.step] at hc
    split at hc
    · rename_i hreg
      rw [Bool.and_eq_true] at hreg
      rw [(connectionCallback_frame hc).1]
      exact h.connectionCallback (fun codes hcb => hown codes (by rw [hcb]) hreg.1) hc
    · exact hvoid hc
  | disconnect =>
    obtain rfl := Option.some.inj hc
    split
    · exact h.congr rfl rfl rfl rfl
    · exact h
  | delete =>
    obtain rfl := Option.some.inj hc
    split
    · exact h.congr rfl rfl rfl rfl
    · exact h
  | application ae =>
    simp only [Cnx.step] at hc
    split at hc
    · exact hvoid hc
    · rename_i hat
      obtain ⟨ends, hends, hc⟩ := Option.bind_eq_some_iff.mp hc
      obtain rfl := Option.some.inj hc
      have hdrop : ae.isDrop = false := by
        cases ae <;> first | rfl | exact absurd rfl hat
      exact h.congr rfl rfl (congrArg not (Connections.Ends.step_alive hends hdrop)) rfl

end Accounted

end Cnx

namespace CContext

variable (c : CContext)

/-- **No second close**: a close comes only while picoquic owns its reference. -/
def closesOnce : Event → Bool
  | .callback k (.close _) => c.cnxs[k]?.all fun cnx => !cnx.registered || cnx.owned
  | _ => true

/-- **The references are accounted for.** In every run in which picoquic closes no
connection a second time, the strong count of every context is the number of its
holders: the vector, and picoquic, which gives up its reference at most once. The
context is freed exactly when both are gone. -/
theorem references_are_accounted {checks : Bool} {interval : Option Duration} {es : List Event}
    {c : CContext}
    (honce : Trace.Obeys step (fun c e => c.closesOnce e = true) (new checks interval) es)
    (hrun : (new checks interval).run es = some c) : ∀ cnx ∈ c.cnxs,
    cnx.strong = cnx.listed.toNat + cnx.owned.toNat ∧ cnx.givenUp ≤ 1 ∧
      (cnx.freed = true ↔ cnx.listed = false ∧ cnx.owned = false) := by
  intro cnx hcnx
  have h : cnx.Accounted cnx.listed := by
    refine run_rule (P := fun cnx => cnx.Accounted cnx.listed) ?_ ?_ ?_ ?_ honce hrun cnx hcnx
    · intro c e k cnx cnx' ce hok hk hon h hstep
      refine h.step (fun codes hce hreg => ?_) hstep
      obtain rfl := hce
      cases e <;> simp only [Event.on, reduceCtorEq, Option.ite_none_right_eq_some,
        Option.some.injEq, Cnx.Event.callback.injEq, and_false] at hon
      obtain ⟨rfl, rfl⟩ := hon
      simpa [closesOnce, hk, hreg] using hok
    · exact fun cnx cnx' ae h hstep => h.step (by simp) hstep
    · intro cb cnx hc
      have hnew : (Cnx.new false).Accounted true := Cnx.new_accounted false
      exact (hnew.connectionCallback (fun _ _ => rfl) hc).congr rfl rfl rfl rfl
    · exact (Cnx.new_accounted true).congr rfl rfl rfl rfl
  exact ⟨h.strong, h.givenUp, h.freed_eq⟩

/-- A connection is closed by picoquic, and polled. -/
theorem references_are_accounted_after_a_close : ∃ c,
    (new true none).run [.outgoing none true,
      .incoming false (.other (.stream 4 (.data [1] .other))),
      .callback 1 (.close ⟨0, 0, fun _ => false⟩), .poll] = some c ∧
    ∀ cnx ∈ c.cnxs, cnx.strong = cnx.listed.toNat + cnx.owned.toNat ∧ cnx.givenUp ≤ 1 ∧
      (cnx.freed = true ↔ cnx.listed = false ∧ cnx.owned = false) :=
  ⟨_, rfl, @references_are_accounted true none
    [.outgoing none true, .incoming false (.other (.stream 4 (.data [1] .other))),
      .callback 1 (.close ⟨0, 0, fun _ => false⟩), .poll] _ (by decide) rfl⟩

/-- **A second close frees a context that is listed.** The next poll of the vector then
works on freed memory. -/
theorem second_close_frees_too_early : ∃ c cnx,
    (new true none).run [.outgoing none true, .callback 0 (.close ⟨0, 0, fun _ => false⟩),
      .callback 0 (.close ⟨0, 0, fun _ => false⟩)] = some c ∧
    c.cnxs = [cnx] ∧ cnx.strong = 0 ∧ cnx.listed = true ∧ cnx.givenUp = 2 ∧ cnx.freed = true ∧
    c.poll = none :=
  ⟨_, _, rfl, rfl, rfl, rfl, rfl, rfl, rfl⟩

end CContext

end Endpoint

end PicoquicRs
