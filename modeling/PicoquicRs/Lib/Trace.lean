import Mathlib.Data.Option.Basic
import Mathlib.Data.List.Basic
import Mathlib.Data.List.Induction
import Mathlib.Order.WellFounded

/-!
# Runs of a machine, and what they keep

A program driven by its environment is a partial step function: `step s e` is
the state after the event `e`, or `none` when the event makes the program stop
with a panic. This file says once what a *run* is – a list of events taken one
after the other – and gives the two rules every result about runs goes through:

* `Trace.run_simulates` – a relation between the states of the machine and the
  states of a total specification, kept by every event the environment may
  produce, holds at the end of every run;
* `Trace.run_invariant` – the same with a property of the states alone.

What an event puts out besides is logged by `Trace.log`, and `Trace.run_history` is the rule
for invariants that speak about the events so far. Where no rules are set for the environment,
`Trace.run_keeps` and `Trace.run_records` are the two rules for invariants. What is logged may be
the run of another machine: `Trace.run_refines` is the rule for that; and where one machine is
part of another, `Trace.run_projects`. For runs that go on for ever there is
`Trace.eventually_of_rank`.

Which events the environment may produce is a predicate of the state the event
meets, and `Trace.Obeys` says that a run keeps to it. Both rules also say that
the run does not panic, whenever the single steps do not.
-/

namespace Trace

variable {σ ε τ : Type*}

/-- The state a list of events leads to, `none` if one of them panics. -/
def run (step : σ → ε → Option σ) : σ → List ε → Option σ
  | s, [] => some s
  | s, e :: es => (step s e).bind fun s' => run step s' es

/-- **The environment keeps to `ok`**: every event of the run is allowed in the
state it meets. -/
def Obeys (step : σ → ε → Option σ) (ok : σ → ε → Prop) : σ → List ε → Prop
  | _, [] => True
  | s, e :: es => ok s e ∧ ∀ s', step s e = some s' → Obeys step ok s' es

variable {step : σ → ε → Option σ} {ok ok' : σ → ε → Prop} {s s' : σ} {e : ε} {es : List ε}

@[simp] theorem run_nil : run step s [] = some s := rfl

@[simp] theorem run_cons : run step s (e :: es) = (step s e).bind fun s' => run step s' es := rfl

/-- A run goes on from where its first step leads. -/
theorem run_cons_of_step (h : step s e = some s') : run step s (e :: es) = run step s' es := by
  rw [run_cons, h, Option.bind_some]

@[simp] theorem obeys_nil : Obeys step ok s [] := trivial

theorem obeys_cons :
    Obeys step ok s (e :: es) ↔ ok s e ∧ ∀ s', step s e = some s' → Obeys step ok s' es := Iff.rfl

/-- A run of two lists is the run of the second from where the first ends. -/
theorem run_append (s : σ) (es es' : List ε) :
    run step s (es ++ es') = (run step s es).bind fun s' => run step s' es' := by
  induction es generalizing s with
  | nil => rfl
  | cons e es ih =>
    simp only [List.cons_append, run_cons]
    cases step s e with
    | none => rfl
    | some s' => simpa using ih s'

/-- A run obeys the environment's rules when its two halves do. -/
theorem obeys_append {es es' : List ε} :
    Obeys step ok s (es ++ es') ↔
      Obeys step ok s es ∧ ∀ s', run step s es = some s' → Obeys step ok s' es' := by
  induction es generalizing s with
  | nil => simp
  | cons e es ih =>
    simp only [List.cons_append, obeys_cons, ih, run_cons, Option.bind_eq_some_iff]
    constructor
    · rintro ⟨hok, h⟩
      refine ⟨⟨hok, fun s' hs => (h s' hs).1⟩, ?_⟩
      rintro s'' ⟨s', hs, hr⟩
      exact (h s' hs).2 s'' hr
    · rintro ⟨⟨hok, h⟩, h'⟩
      exact ⟨hok, fun s' hs => ⟨h s' hs, fun s'' hr => h' s'' ⟨s', hs, hr⟩⟩⟩

/-- Whether a run keeps to rules that can be checked can be checked. -/
instance decidableObeys [∀ s e, Decidable (ok s e)] : ∀ s es, Decidable (Obeys step ok s es)
  | _, [] => isTrue trivial
  | s, e :: es =>
    match h : step s e with
    | none => decidable_of_iff (ok s e) ⟨fun hok => ⟨hok, by simp [h]⟩, And.left⟩
    | some s' =>
      have := decidableObeys s' es
      decidable_of_iff (ok s e ∧ Obeys step ok s' es) (by simp [obeys_cons, h])

/-- Two sets of rules are kept together. -/
theorem obeys_and : Obeys step (fun s e => ok s e ∧ ok' s e) s es ↔
    Obeys step ok s es ∧ Obeys step ok' s es := by
  induction es generalizing s with
  | nil => simp
  | cons e es ih =>
    simp only [obeys_cons, ih]
    exact ⟨fun h => ⟨⟨h.1.1, fun s' hs => (h.2 s' hs).1⟩, h.1.2, fun s' hs => (h.2 s' hs).2⟩,
      fun h => ⟨⟨h.1.1, h.2.1⟩, fun s' hs => ⟨h.1.2 s' hs, h.2.2 s' hs⟩⟩⟩

/-- Rules that look at the event alone are kept by a run whose events keep them. -/
theorem obeys_of_forall (h : ∀ e ∈ es, ∀ s, ok s e) : Obeys step ok s es := by
  induction es generalizing s with
  | nil => trivial
  | cons e es ih =>
    exact ⟨h e List.mem_cons_self s, fun _ _ => ih fun e' he' => h e' (List.mem_cons_of_mem _ he')⟩

/-- **A run keeps to the rules exactly if each event is allowed in the state the events
before it lead to.** -/
theorem obeys_iff : Obeys step ok s es ↔
    ∀ es₁ e es₂, es = es₁ ++ e :: es₂ → ∀ s', run step s es₁ = some s' → ok s' e := by
  constructor
  · rintro h es₁ e es₂ rfl s' hrun
    exact ((obeys_append.mp h).2 s' hrun).1
  · intro h
    induction es generalizing s with
    | nil => trivial
    | cons e es ih =>
      refine ⟨h [] e es rfl s rfl, fun s' hs => ih fun es₁ e' es₂ hes s'' hrun => ?_⟩
      exact h (e :: es₁) e' es₂ (by rw [hes, List.cons_append]) s''
        (by rw [run_cons_of_step hs, hrun])

/-- **The simulation rule.** A relation to a total specification that every
allowed event keeps, and under which no allowed event panics, holds at the end
of every run that obeys the rules. -/
theorem run_simulates {spec : τ → ε → τ} {R : σ → τ → Prop}
    (hstep : ∀ s t e, R s t → ok s e → ∃ s', step s e = some s' ∧ R s' (spec t e))
    {t : τ} (h : R s t) (hob : Obeys step ok s es) :
    ∃ s', run step s es = some s' ∧ R s' (es.foldl spec t) := by
  induction es generalizing s t with
  | nil => exact ⟨s, rfl, h⟩
  | cons e es ih =>
    obtain ⟨s', hs', hR⟩ := hstep s t e h hob.1
    obtain ⟨s'', hs'', hR'⟩ := ih hR (hob.2 s' hs')
    exact ⟨s'', by simp [hs', hs''], hR'⟩

/-- **The invariant rule.** -/
theorem run_invariant {P : σ → Prop}
    (hstep : ∀ s e, P s → ok s e → ∃ s', step s e = some s' ∧ P s')
    (h : P s) (hob : Obeys step ok s es) : ∃ s', run step s es = some s' ∧ P s' :=
  @run_simulates _ _ Unit step ok s es (fun _ _ => ()) (fun s _ => P s)
    (fun s _ e => hstep s e) () h hob

/-- The simulation rule for a relation that says nothing about panics: it holds
wherever a run arrives. -/
theorem run_tracks {spec : τ → ε → τ} {R : σ → τ → Prop}
    (hstep : ∀ s t e s', R s t → ok s e → step s e = some s' → R s' (spec t e))
    {t : τ} (h : R s t) (hob : Obeys step ok s es) (hrun : run step s es = some s') :
    R s' (es.foldl spec t) := by
  induction es generalizing s t with
  | nil =>
    obtain rfl : s = s' := by simpa using hrun
    exact h
  | cons e es ih =>
    obtain ⟨s₁, hs₁, hr⟩ := Option.bind_eq_some_iff.mp hrun
    exact ih (hstep s t e s₁ h hob.1 hs₁) (hob.2 s₁ hs₁) hr

/-- The invariant rule for a property that says nothing about panics. -/
theorem run_preserves {P : σ → Prop}
    (hstep : ∀ s e s', P s → ok s e → step s e = some s' → P s')
    (h : P s) (hob : Obeys step ok s es) (hrun : run step s es = some s') : P s' :=
  @run_tracks _ _ Unit step ok s s' es (fun _ _ => ()) (fun s _ => P s)
    (fun s _ e s' => hstep s e s') () h hob hrun

/-- The invariant rule where no rules are set: a step may use that its event is one of the
run's. -/
theorem run_keeps {P : σ → Prop}
    (hstep : ∀ s, ∀ e ∈ es, ∀ s', P s → step s e = some s' → P s')
    (h : P s) (hrun : run step s es = some s') : P s' :=
  run_preserves (fun s e s' hs he => hstep s e he s' hs) h (obeys_of_forall fun _ he _ => he) hrun

/-! ### What a run logs, and what it did before -/

variable {α : Type*} {out : σ → ε → List α} {s₀ : σ} {es' : List ε}

/-- **What a run logs**: what each event puts out in the state it meets, up to a panic. -/
def log (step : σ → ε → Option σ) (out : σ → ε → List α) : σ → List ε → List α
  | _, [] => []
  | s, e :: es => out s e ++ (step s e).elim [] fun s' => log step out s' es

/-- A log goes on from where its first part leads. -/
theorem log_append (hrun : run step s es = some s') :
    log step out s (es ++ es') = log step out s es ++ log step out s' es' := by
  induction es generalizing s with
  | nil =>
    obtain rfl := Option.some.inj hrun
    rfl
  | cons e es ih =>
    obtain ⟨s₁, hs₁, hrun⟩ := Option.bind_eq_some_iff.mp hrun
    rw [List.cons_append, log, log, hs₁, Option.elim_some, Option.elim_some, ih hrun,
      List.append_assoc]

theorem log_singleton (s : σ) (e : ε) : log step out s [e] = out s e := by
  rw [log]
  cases step s e <;> exact List.append_nil _

/-- **A longer run logs more.** -/
theorem log_prefix (h : es <+: es') : log step out s es <+: log step out s es' := by
  induction es generalizing s es' with
  | nil => exact List.nil_prefix
  | cons e es ih =>
    obtain ⟨es'', rfl⟩ := h
    rw [List.cons_append, log, log, List.prefix_append_right_inj]
    cases step s e with
    | none => exact List.prefix_rfl
    | some s' => exact ih (List.prefix_append _ _)

/-- What a run has logged, one of its events put out. -/
theorem exists_of_mem_log {x : α} (h : x ∈ log step out s es) :
    ∃ e ∈ es, ∃ s', x ∈ out s' e := by
  induction es generalizing s with
  | nil => simp [log] at h
  | cons e es ih =>
    rw [log, List.mem_append] at h
    rcases h with h | h
    · exact ⟨e, List.mem_cons_self, s, h⟩
    · cases hs : step s e with
      | none => simp [hs] at h
      | some s' =>
        obtain ⟨e', he', hx⟩ := ih (by simpa [hs] using h)
        exact ⟨e', List.mem_cons_of_mem _ he', hx⟩

/-- **The rule for what a run did before.** A relation between the events so far and the state
they lead to, kept by every allowed event, holds at the end of the run. -/
theorem run_history {R : List ε → σ → Prop}
    (hstep : ∀ es₁ e s s', es₁ ++ [e] <+: es → run step s₀ es₁ = some s → R es₁ s → ok s e →
      step s e = some s' → R (es₁ ++ [e]) s')
    (h : R [] s₀) (hob : Obeys step ok s₀ es) (hrun : run step s₀ es = some s) : R es s := by
  suffices hpre : ∀ es₁, es₁ <+: es → ∀ s, run step s₀ es₁ = some s → R es₁ s from
    hpre es List.prefix_rfl s hrun
  intro es₁
  induction es₁ using List.reverseRecOn with
  | nil =>
    rintro - s hrun
    obtain rfl := Option.some.inj hrun
    exact h
  | append_singleton es₁ e ih =>
    intro hpre s' hrun'
    rw [run_append] at hrun'
    obtain ⟨s, hs, hrun'⟩ := Option.bind_eq_some_iff.mp hrun'
    obtain ⟨s'', hs'', hrun'⟩ := Option.bind_eq_some_iff.mp hrun'
    obtain rfl := Option.some.inj hrun'
    obtain ⟨es₂, rfl⟩ := hpre
    rw [List.append_assoc] at hob
    have hok := ((obeys_append.mp hob).2 s hs).1
    exact hstep es₁ e s s'' (List.prefix_append _ _) hs
      (ih ((List.prefix_append _ _).trans (List.prefix_append _ _)) s hs) hok hs''

/-- The rule for what a run did before, where no rules are set. -/
theorem run_records {R : List ε → σ → Prop}
    (hstep : ∀ es₁ e s s', run step s₀ es₁ = some s → R es₁ s → step s e = some s' →
      R (es₁ ++ [e]) s')
    (h : R [] s₀) (hrun : run step s₀ es = some s) : R es s :=
  run_history (fun es₁ e s s' _ hes h _ => hstep es₁ e s s' hes h) h
    (obeys_of_forall fun _ he _ => he : Obeys step (fun _ e => e ∈ es) s₀ es) hrun

/-- **And where no allowed event panics then, the run does not.** -/
theorem run_safe {R : List ε → σ → Prop}
    (hstep : ∀ es₁ e s s', es₁ ++ [e] <+: es → run step s₀ es₁ = some s → R es₁ s → ok s e →
      step s e = some s' → R (es₁ ++ [e]) s')
    (hsafe : ∀ es₁ e s, es₁ ++ [e] <+: es → R es₁ s → ok s e → ∃ s', step s e = some s')
    (h : R [] s₀) (hob : Obeys step ok s₀ es) : ∃ s, run step s₀ es = some s := by
  suffices hpre : ∀ es₁, es₁ <+: es → ∃ s, run step s₀ es₁ = some s from hpre es List.prefix_rfl
  intro es₁
  induction es₁ using List.reverseRecOn with
  | nil => exact fun _ => ⟨s₀, rfl⟩
  | append_singleton es₁ e ih =>
    rintro ⟨es₂, rfl⟩
    obtain ⟨s, hs⟩ := ih ((List.prefix_append _ _).trans (List.prefix_append _ _))
    have hob₁ := hob
    rw [List.append_assoc] at hob₁
    obtain ⟨hbefore, hafter⟩ := obeys_append.mp hob₁
    have hR : R es₁ s := run_history (fun es' e' s s' hpre => hstep es' e' s s'
      (hpre.trans ((List.prefix_append _ _).trans (List.prefix_append _ _)))) h hbefore hs
    obtain ⟨s', hs'⟩ := hsafe es₁ e s (List.prefix_append _ _) hR (hafter s hs).1
    exact ⟨s', by simp [run_append, hs, hs']⟩

/-- **The rule for a refinement.** If the operations each allowed event logs are a run of the
specification, from a state related to the one the event meets to one related to the state it
leads to, then so are the operations a whole run logs. -/
theorem run_refines {spec : τ → α → Option τ} {R : σ → τ → Prop}
    (hstep : ∀ s t e s', R s t → ok s e → step s e = some s' →
      ∃ t', run spec t (out s e) = some t' ∧ R s' t')
    {t : τ} (h : R s t) (hob : Obeys step ok s es) (hrun : run step s es = some s') :
    ∃ t', run spec t (log step out s es) = some t' ∧ R s' t' := by
  induction es generalizing s t with
  | nil =>
    obtain rfl := Option.some.inj hrun
    exact ⟨t, rfl, h⟩
  | cons e es ih =>
    obtain ⟨s₁, hs₁, hrun⟩ := Option.bind_eq_some_iff.mp hrun
    obtain ⟨t₁, ht₁, h₁⟩ := hstep s t e s₁ h hob.1 hs₁
    obtain ⟨t', ht', h'⟩ := ih h₁ (hob.2 s₁ hs₁) hrun
    refine ⟨t', ?_, h'⟩
    rw [log, hs₁, Option.elim_some, run_append, ht₁, Option.bind_some, ht']

/-- **The rule for a projection.** If every allowed step of a machine is, seen through `f`, an
allowed run of another machine, then so is every run. What `R` says of the events of that run is
kept. -/
theorem run_projects {f : σ → τ} {step' : τ → α → Option τ} {ok' : τ → α → Prop}
    {R : List α → σ → Prop}
    (hstep : ∀ l s e s', R l s → ok s e → step s e = some s' →
      ∃ l', run step' (f s) l' = some (f s') ∧ Obeys step' ok' (f s) l' ∧ R (l ++ l') s')
    (h : R [] s) (hob : Obeys step ok s es) (hrun : run step s es = some s') :
    ∃ l, run step' (f s) l = some (f s') ∧ Obeys step' ok' (f s) l ∧ R l s' := by
  suffices hgen : ∀ l₀, R l₀ s → ∃ l, run step' (f s) l = some (f s') ∧
      Obeys step' ok' (f s) l ∧ R (l₀ ++ l) s' from hgen [] h
  clear h
  induction es generalizing s with
  | nil =>
    intro l₀ h
    obtain rfl := Option.some.inj hrun
    exact ⟨[], rfl, trivial, (List.append_nil l₀).symm ▸ h⟩
  | cons e es ih =>
    intro l₀ h
    obtain ⟨s₁, hs₁, hrun⟩ := Option.bind_eq_some_iff.mp hrun
    obtain ⟨l₁, hl₁, hob₁, h₁⟩ := hstep l₀ s e s₁ h hob.1 hs₁
    obtain ⟨l₂, hl₂, hob₂, h₂⟩ := ih (hob.2 s₁ hs₁) hrun (l₀ ++ l₁) h₁
    refine ⟨l₁ ++ l₂, ?_, obeys_append.mpr ⟨hob₁, fun t ht => ?_⟩, ?_⟩
    · rw [run_append, hl₁, Option.bind_some, hl₂]
    · obtain rfl := Option.some.inj (hl₁.symm.trans ht)
      exact hob₂
    · rw [← List.append_assoc]
      exact h₂

/-! ### Runs that go on for ever -/

/-- **The rule for a rank.** If a rank never rises, and drops at each step but those of one
kind, then from some step on all steps are of this kind. -/
theorem eventually_of_rank {β : Type*} [LinearOrder β] [WellFoundedLT β] (rank : ℕ → β)
    {stays : ℕ → Prop} (n₀ : ℕ)
    (hstep : ∀ n, n₀ ≤ n → rank (n + 1) < rank n ∨ stays n ∧ rank (n + 1) ≤ rank n) :
    ∃ N, ∀ n, N ≤ n → stays n := by
  obtain ⟨-, ⟨N, hN, rfl⟩, hmin⟩ := wellFounded_lt.has_min
    {b : β | ∃ n, n₀ ≤ n ∧ rank n = b} ⟨_, n₀, Nat.le_refl _, rfl⟩
  have hle : ∀ n, N ≤ n → rank n ≤ rank N := by
    intro n hn
    induction n, hn using Nat.le_induction with
    | base => exact le_rfl
    | succ n hn ih =>
      rcases hstep n (Nat.le_trans hN hn) with hlt | ⟨-, hle⟩
      · exact hlt.le.trans ih
      · exact hle.trans ih
  refine ⟨N, fun n hn => ?_⟩
  have hn₀ := Nat.le_trans hN hn
  rcases hstep n hn₀ with hlt | ⟨hstays, -⟩
  · exact absurd (hlt.trans_le (hle n hn)) (hmin _ ⟨n + 1, Nat.le_succ_of_le hn₀, rfl⟩)
  · exact hstays

end Trace
