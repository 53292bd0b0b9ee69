import Mathlib.Data.List.Infix
import PicoquicRs.Lib.Trace

/-!
# Pipes

What a one-way connection between two parties is for, as the two of them know it: one writes
and closes, the other reads and is told the end. The pipe may also be aborted by the writer,
and it may be cut by a third party.

A pipe is a machine that accepts the operations it allows (`Pipe.step`), and a component
implements a pipe if the operations its users see are a run of it. What such a run
guarantees is said here: what was read is at every moment a prefix of what was written
(`Pipe.run_isPrefix`), a reader that is told the end of a pipe nobody has cut has read all of
it (`Pipe.run_eof`), and it is told of a failure only if there was one (`Pipe.run_failure`).
-/

/-- **A pipe**, as its users know it. -/
structure Pipe (α : Type*) where
  /-- What was written so far. -/
  written : List α
  /-- What was read so far. -/
  read : List α
  /-- The writer has closed the pipe. -/
  closed : Bool
  /-- The writer has asked to abort it. -/
  aborted : Bool
  /-- Somebody else has cut it. -/
  cut : Bool
  /-- The reader was told that nothing more will come. -/
  done : Bool
  deriving DecidableEq, Repr

namespace Pipe

variable {α : Type*}

/-- What may happen at the ends of a pipe. -/
inductive Op (α : Type*) where
  /-- The writer writes. -/
  | write (l : List α)
  /-- The writer closes the pipe. -/
  | close
  /-- The writer asks to abort it. -/
  | abort
  /-- The pipe is cut. -/
  | cut
  /-- The reader reads. -/
  | read (l : List α)
  /-- The reader is told the end. -/
  | eof
  /-- The reader is told that the pipe was aborted. -/
  | broken
  /-- The reader is told that the pipe was cut. -/
  | fail
  deriving DecidableEq, Repr

/-- A pipe nobody has used. -/
def empty : Pipe α := ⟨[], [], false, false, false, false⟩

/-- **The operations a pipe allows.** The writer does nothing after closing it, and the
reader nothing after the end. What is read comes next in what was written. The end is
reached when all was read, and the pipe is found aborted only if the writer asked for it or
wrote nothing. A pipe that was cut may end at any time. -/
def Allowed (p : Pipe α) : Op α → Prop
  | .write _ | .close | .abort => p.closed = false
  | .cut => True
  | .read l => p.done = false ∧ p.read ++ l <+: p.written
  | .eof => p.done = false ∧ (p.cut = true ∨ p.closed = true ∧ p.read = p.written)
  | .broken => p.done = false ∧ (p.aborted = true ∨ p.closed = true ∧ p.written = [])
  | .fail => p.done = false ∧ p.cut = true

/-- What an operation does to a pipe. -/
def after (p : Pipe α) : Op α → Pipe α
  | .write l => { p with written := p.written ++ l }
  | .close => { p with closed := true }
  | .abort => { p with aborted := true }
  | .cut => { p with cut := true }
  | .read l => { p with read := p.read ++ l }
  | .eof | .broken | .fail => { p with done := true }

section

variable [DecidableEq α]

instance (p : Pipe α) : ∀ o, Decidable (p.Allowed o)
  | .write _ | .close | .abort => inferInstanceAs (Decidable (p.closed = false))
  | .cut => inferInstanceAs (Decidable True)
  | .read _ | .eof | .broken | .fail => inferInstanceAs (Decidable (_ ∧ _))

/-- One operation, if it is allowed. -/
def step (p : Pipe α) (o : Op α) : Option (Pipe α) := if p.Allowed o then some (p.after o) else none

/-- A list of operations, one after the other. -/
abbrev run : Pipe α → List (Op α) → Option (Pipe α) := Trace.run step

end

/-! ### What is read and written -/

/-- What an operation writes. -/
def Op.written : Op α → List α
  | write l => l
  | _ => []

/-- What an operation reads. -/
def Op.got : Op α → List α
  | read l => l
  | _ => []

section

variable {p p' : Pipe α} {o : Op α} {ops : List (Op α)}

@[simp] theorem after_written : (p.after o).written = p.written ++ o.written := by
  cases o <;> simp [after, Op.written]

@[simp] theorem after_read : (p.after o).read = p.read ++ o.got := by
  cases o <;> simp [after, Op.got]

theorem after_cut : (p.after o).cut = true ↔ p.cut = true ∨ o = .cut := by
  cases o <;> simp [after]

/-- **What is read comes next in what was written.** -/
theorem Allowed.isPrefix (h : p.Allowed o) (hp : p.read <+: p.written) :
    (p.after o).read <+: (p.after o).written := by
  cases o with
  | read l => simpa [Op.got, Op.written] using h.2
  | write l => simpa [Op.got, Op.written] using hp.trans (List.prefix_append _ l)
  | _ => simpa [Op.got, Op.written] using hp

variable [DecidableEq α]

theorem step_eq_some : p.step o = some p' ↔ p.Allowed o ∧ p' = p.after o := by
  simp [step, eq_comm]

theorem run_singleton (h : p.Allowed o) : p.run [o] = some (p.after o) := by
  simp [run, step, h]

/-- **The law of a pipe**: it holds what was written and not read yet, and nothing else was
read. -/
theorem run_isPrefix (h : (empty : Pipe α).run ops = some p) :
    p.written = ops.flatMap Op.written ∧ p.read = ops.flatMap Op.got ∧ p.read <+: p.written :=
  Trace.run_records
    (R := fun ops p => p.written = ops.flatMap Op.written ∧ p.read = ops.flatMap Op.got ∧
      p.read <+: p.written)
    (fun ops o p p' _ ⟨hw, hr, hle⟩ hstep => by
      obtain ⟨hok, rfl⟩ := step_eq_some.mp hstep
      exact ⟨by rw [after_written, hw, List.flatMap_append, List.flatMap_singleton],
        by rw [after_read, hr, List.flatMap_append, List.flatMap_singleton], hok.isPrefix hle⟩)
    ⟨rfl, rfl, List.prefix_rfl⟩ h

/-- **The end of a pipe nobody has cut** is told once the writer has closed it, and the
reader has read all that was written; and that is how it stays. -/
theorem run_eof (h : (empty : Pipe α).run ops = some p) (heof : .eof ∈ ops) (hcut : .cut ∉ ops) :
    p.closed = true ∧ p.done = true ∧ p.read = p.written := by
  refine Trace.run_records
    (R := fun ops p => (p.cut = true ↔ Op.cut ∈ ops) ∧
      (Op.eof ∈ ops → Op.cut ∉ ops → p.closed = true ∧ p.done = true ∧ p.read = p.written))
    (fun ops o p p' _ ⟨hc, ih⟩ hstep => ?_) ⟨by simp [empty], by simp⟩ h |>.2 heof hcut
  obtain ⟨hok, rfl⟩ := step_eq_some.mp hstep
  refine ⟨by rw [after_cut, hc, List.mem_append, List.mem_singleton, eq_comm (a := Op.cut)],
    fun heof hcut => ?_⟩
  rw [List.mem_append, not_or, ← hc] at hcut
  by_cases he : Op.eof ∈ ops
  · -- nothing more is written or read
    obtain ⟨hclosed, hdone, hall⟩ := ih he (hc.not.mp hcut.1)
    cases o <;> simp [Allowed, hclosed, hdone] at hok
    simp [after, hclosed, hdone, hall]
  · obtain rfl : Op.eof = o := by simpa [he] using heof
    obtain ⟨hclosed, hall⟩ := hok.2.resolve_left hcut.1
    exact ⟨hclosed, rfl, hall⟩

/-- **The reader is told of a failure only if there was one**: the writer has asked for it, or
has written nothing; or the pipe was cut. -/
theorem run_failure (h : (empty : Pipe α).run ops = some p) :
    (.broken ∈ ops → .abort ∈ ops ∨ p.closed = true ∧ p.written = []) ∧
      (.fail ∈ ops → .cut ∈ ops) := by
  refine Trace.run_records
    (R := fun ops p => (p.aborted = true → Op.abort ∈ ops) ∧ (p.cut = true → Op.cut ∈ ops) ∧
      (Op.broken ∈ ops → Op.abort ∈ ops ∨ p.closed = true ∧ p.written = []) ∧
        (Op.fail ∈ ops → Op.cut ∈ ops))
    (fun ops o p p' _ ⟨ha, hc, hb, hf⟩ hstep => ?_) ⟨by simp [empty], by simp [empty], by simp,
      by simp⟩ h |>.2.2
  obtain ⟨hok, rfl⟩ := step_eq_some.mp hstep
  simp only [List.mem_append, List.mem_singleton]
  cases o with
  | write l =>
    have hopen : p.closed = false := hok
    exact ⟨by simpa [after] using ha, by simpa [after] using hc,
      fun h => Or.inl (Or.inl ((hb (by simpa using h)).resolve_right (by simp [hopen]))),
      by simpa using hf⟩
  | abort => exact ⟨by simp, by simpa [after] using hc, by simp, by simpa using hf⟩
  | cut => exact ⟨by simpa [after] using ha, by simp, by simpa [after] using hb, by simp⟩
  | broken =>
    exact ⟨by simpa [after] using ha, by simpa [after] using hc,
      fun _ => hok.2.imp (fun h => Or.inl (ha h)) fun h => h, by simpa using hf⟩
  | fail =>
    exact ⟨by simpa [after] using ha, by simpa [after] using hc, by simpa [after] using hb,
      fun _ => Or.inl (hc hok.2)⟩
  | close =>
    exact ⟨by simpa [after] using ha, by simpa [after] using hc,
      fun h => (hb (by simpa using h)).imp Or.inl fun h => ⟨rfl, h.2⟩, by simpa using hf⟩
  | read l | eof =>
    exact ⟨by simpa [after] using ha, by simpa [after] using hc, by simpa [after] using hb,
      by simpa using hf⟩

end

end Pipe
