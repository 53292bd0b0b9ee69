import PicoquicRs.Lib.Trace

/-!
# A sender with one slot

Something is put into the slot, and offered to a receiver until the receiver takes it;
only then the slot is free for the next. `Outbox.step` is this discipline as a machine
that gets stuck where it is broken, and `Outbox.run_after_put` says what it means for
a record of what was put and offered: whatever was put is followed by offers of itself
that were refused, and then by nothing yet, or by the offer that was taken.
-/

namespace Outbox

variable {α : Type*}

/-- What a sender does. -/
inductive Action (α : Type*) where
  /-- The slot is filled, or was going to be. -/
  | put (a : Option α)
  /-- Something is offered, and taken or refused. -/
  | offer (a : α) (taken : Bool)
  deriving DecidableEq, Repr

variable [DecidableEq α]

/-- The slot after an action: only a free slot is filled, and only what is in the slot is
offered. -/
def step : Option α → Action α → Option (Option α)
  | none, .put a => some a
  | some a, .offer b taken => if a = b then some (if taken then none else some a) else none
  | none, .offer _ _ => none
  | some _, .put _ => none

/-- The slot after a record of actions. -/
abbrev run : Option α → List (Action α) → Option (Option α) := Trace.run step

variable {a : α} {slot : Option α}

/-- The slot is filled, and what it is filled with is offered. -/
theorem step_put (a : Option α) : step none (.put a) = some a := rfl

theorem step_offer (taken : Bool) :
    step (some a) (.offer a taken) = some (if taken then none else some a) := if_pos rfl

/-- A record goes on with one more action. -/
theorem run_snoc {acts : List (Action α)} {act : Action α} {slot' : Option α}
    (h : run none acts = some slot) (hstep : step slot act = some slot') :
    run none (acts ++ [act]) = some slot' := by
  simp only [run] at h ⊢
  rw [Trace.run_append, h, Option.bind_some, Trace.run_cons, hstep]
  rfl

/-- **What is in the slot is offered until it is taken**, and nothing else happens in
between. -/
theorem run_of_full {acts : List (Action α)} (h : run (some a) acts = some slot) :
    ∃ n, acts = List.replicate n (.offer a false) ∨
      ∃ rest, acts = List.replicate n (.offer a false) ++ .offer a true :: rest := by
  induction acts with
  | nil => exact ⟨0, Or.inl rfl⟩
  | cons act acts ih =>
    obtain ⟨slot₁, hstep, h⟩ := Option.bind_eq_some_iff.mp h
    cases act with
    | put b => simp [step] at hstep
    | offer b taken =>
      simp only [step, Option.ite_none_right_eq_some, Option.some.injEq] at hstep
      obtain ⟨rfl, hslot⟩ := hstep
      cases taken with
      | true => exact ⟨0, Or.inr ⟨acts, rfl⟩⟩
      | false =>
        obtain rfl : some a = slot₁ := hslot
        obtain ⟨n, rfl | ⟨rest, rfl⟩⟩ := ih h
        · exact ⟨n + 1, Or.inl rfl⟩
        · exact ⟨n + 1, Or.inr ⟨rest, rfl⟩⟩

/-- **What was put is offered until it is taken.** -/
theorem run_after_put {before after : List (Action α)}
    (h : run none (before ++ .put (some a) :: after) = some slot) :
    ∃ n, after = List.replicate n (.offer a false) ∨
      ∃ rest, after = List.replicate n (.offer a false) ++ .offer a true :: rest := by
  simp only [run] at h
  rw [Trace.run_append] at h
  obtain ⟨slot₁, -, h⟩ := Option.bind_eq_some_iff.mp h
  obtain ⟨slot₂, hstep, h⟩ := Option.bind_eq_some_iff.mp h
  cases slot₁ with
  | none =>
    obtain rfl : some a = slot₂ := Option.some.inj hstep
    exact run_of_full h
  | some b => simp [step] at hstep

end Outbox
