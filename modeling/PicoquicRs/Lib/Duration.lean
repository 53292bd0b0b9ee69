import Mathlib.Data.Nat.Basic
import Mathlib.Order.Bounds.Defs

/-!
# Durations, and the arithmetic of machine words

The 64-bit operators of a language that checks its arithmetic or wraps it, as the build
says, and the spans of time of its library, after their documented behaviour:

* `Time.mul`, `Time.add` – the operators. A build that checks stops at a result that does
  not fit into the word, the other takes the result modulo the size of the word;
* `Time.Duration` – whole seconds, and nanoseconds that do not fill another one. The order
  on durations is that of the lengths in nanoseconds (`Time.Duration.le_iff_toNanos`).
-/

namespace Time

/-! ### Words -/

variable {checks : Bool} {a b c : UInt64}

/-- `a * b`, `none` where the build checks and the result does not fit. -/
def mul (checks : Bool) (a b : UInt64) : Option UInt64 :=
  if checks = true ∧ UInt64.size ≤ a.toNat * b.toNat then none else some (a * b)

/-- `a + b`, `none` where the build checks and the result does not fit. -/
def add (checks : Bool) (a b : UInt64) : Option UInt64 :=
  if checks = true ∧ UInt64.size ≤ a.toNat + b.toNat then none else some (a + b)

/-- What a word is, said by its number. -/
theorem eq_iff_toNat_mod {n : ℕ} (hc : c.toNat = n % UInt64.size) :
    a = c ↔ a.toNat = n % UInt64.size := by
  rw [← hc, UInt64.toNat_inj]

theorem mul_eq_some : mul checks a b = some c ↔
    c.toNat = a.toNat * b.toNat % UInt64.size ∧
      (checks = true → a.toNat * b.toNat < UInt64.size) := by
  have hm : (a * b).toNat = a.toNat * b.toNat % UInt64.size := UInt64.toNat_mul a b
  rw [← eq_iff_toNat_mod hm, mul, Option.ite_none_left_eq_some, Option.some_inj, not_and,
    Nat.not_le, and_comm, eq_comm]

theorem add_eq_some : add checks a b = some c ↔
    c.toNat = (a.toNat + b.toNat) % UInt64.size ∧
      (checks = true → a.toNat + b.toNat < UInt64.size) := by
  have hm : (a + b).toNat = (a.toNat + b.toNat) % UInt64.size := UInt64.toNat_add a b
  rw [← eq_iff_toNat_mod hm, add, Option.ite_none_left_eq_some, Option.some_inj, not_and,
    Nat.not_le, and_comm, eq_comm]

/-! ### Durations -/

/-- **A span of time**: seconds, and the nanoseconds over. -/
@[ext]
structure Duration where
  /-- `as_secs` -/
  secs : UInt64
  /-- `subsec_nanos` -/
  nanos : UInt32
  /-- The nanoseconds do not fill a second. -/
  nanos_lt : nanos.toNat < 1000000000
  deriving DecidableEq, Repr

namespace Duration

variable (d e : Duration)

/-- `Duration::new`: nanoseconds that fill seconds are carried over, `none` when the
seconds then do not fit. -/
def new (secs : UInt64) (nanos : UInt32) : Option Duration :=
  (add true secs (nanos / 1000000000).toUInt64).map fun s =>
    { secs := s
      nanos := nanos % 1000000000
      nanos_lt := by
        rw [UInt32.toNat_mod]
        exact Nat.mod_lt _ (by decide) }

/-- `Duration::from_secs` -/
def fromSecs (secs : UInt64) : Duration where
  secs := secs
  nanos := 0
  nanos_lt := by decide

/-- The length in nanoseconds. -/
def toNanos : ℕ := d.secs.toNat * 1000000000 + d.nanos.toNat

/-- The order, which looks at the seconds first. -/
instance : LE Duration where
  le d e := d.secs < e.secs ∨ d.secs = e.secs ∧ d.nanos ≤ e.nanos

instance : DecidableLE Duration :=
  fun d e => inferInstanceAs (Decidable (d.secs < e.secs ∨ d.secs = e.secs ∧ d.nanos ≤ e.nanos))

variable {d e}

theorem toNanos_inj : d.toNanos = e.toNanos ↔ d = e := by
  constructor
  · intro h
    have hd := d.nanos_lt
    have he := e.nanos_lt
    simp only [toNanos] at h
    refine Duration.ext (UInt64.toNat_inj.mp ?_) (UInt32.toNat_inj.mp ?_) <;> omega
  · rintro rfl
    rfl

/-- **The order is that of the lengths.** -/
theorem le_iff_toNanos : d ≤ e ↔ d.toNanos ≤ e.toNanos := by
  have hd := d.nanos_lt
  have he := e.nanos_lt
  have hle : d ≤ e ↔ d.secs < e.secs ∨ d.secs = e.secs ∧ d.nanos ≤ e.nanos := Iff.rfl
  rw [hle, UInt64.lt_iff_toNat_lt, UInt32.le_iff_toNat_le, ← UInt64.toNat_inj]
  simp only [toNanos]
  omega

/-- Every length below that of as many seconds as a word can count is one of a duration. -/
theorem exists_toNanos {n : ℕ} (h : n < UInt64.size * 1000000000) :
    ∃ d : Duration, d.toNanos = n := by
  have hn : n % 1000000000 < 1000000000 := Nat.mod_lt _ (by decide)
  have hnanos : (UInt32.ofNat (n % 1000000000)).toNat = n % 1000000000 :=
    UInt32.toNat_ofNat_of_lt' (lt_trans hn (by decide))
  have hsecs : (UInt64.ofNat (n / 1000000000)).toNat = n / 1000000000 :=
    UInt64.toNat_ofNat_of_lt' ((Nat.div_lt_iff_lt_mul (by decide)).mpr h)
  refine ⟨⟨UInt64.ofNat (n / 1000000000), UInt32.ofNat (n % 1000000000), by rwa [hnanos]⟩, ?_⟩
  rw [toNanos, hsecs, hnanos]
  exact Nat.div_add_mod' _ _

/-- Nothing is carried when the nanoseconds do not fill a second. -/
theorem new_of_lt {s : UInt64} {n : UInt32} (h : n.toNat < 1000000000) :
    new s n = some ⟨s, n, h⟩ := by
  have hz : (n / 1000000000).toUInt64.toNat = 0 := by
    rw [UInt32.toNat_toUInt64, UInt32.toNat_div]
    exact Nat.div_eq_of_lt h
  have ha : add true s (n / 1000000000).toUInt64 = some s := by
    have hs := s.toNat_lt_size
    rw [add_eq_some, hz, Nat.add_zero, Nat.mod_eq_of_lt hs]
    exact ⟨rfl, fun _ => hs⟩
  have hn : n % 1000000000 = n := by
    rw [← UInt32.toNat_inj, UInt32.toNat_mod]
    exact Nat.mod_eq_of_lt h
  simp only [new, ha, hn, Option.map_some]

/-! ### Whole microseconds -/

/-- The microseconds that are full. -/
def micros (d : Duration) : ℕ := d.toNanos / 1000

/-- The duration without the nanoseconds that do not fill a microsecond. -/
def roundDown (d : Duration) : Duration where
  secs := d.secs
  nanos := d.nanos - d.nanos % 1000
  nanos_lt := by
    have h := d.nanos_lt
    have hm : d.nanos % 1000 ≤ d.nanos := by
      rw [UInt32.le_iff_toNat_le, UInt32.toNat_mod]
      exact Nat.mod_le _ _
    rw [UInt32.toNat_sub_of_le _ _ hm]
    omega

theorem roundDown_toNanos : d.roundDown.toNanos = d.micros * 1000 := by
  have hm : (d.nanos % 1000).toNat = d.nanos.toNat % 1000 := UInt32.toNat_mod _ _
  have hs : (d.nanos - d.nanos % 1000).toNat = d.nanos.toNat - d.nanos.toNat % 1000 := by
    rw [UInt32.toNat_sub_of_le, hm]
    rw [UInt32.le_iff_toNat_le, hm]
    exact Nat.mod_le _ _
  simp only [toNanos, roundDown, micros, hs]
  omega

/-- **A duration rounded down**: the longest one of whole microseconds that is not longer. -/
def RoundsDown (d e : Duration) : Prop :=
  IsGreatest {e : Duration | 1000 ∣ e.toNanos ∧ e ≤ d} e

theorem roundsDown_roundDown (d : Duration) : d.RoundsDown d.roundDown := by
  refine ⟨⟨?_, ?_⟩, ?_⟩
  · rw [roundDown_toNanos]
    exact Nat.dvd_mul_left _ _
  · rw [le_iff_toNanos, roundDown_toNanos]
    exact Nat.div_mul_le_self _ _
  · rintro e ⟨hdvd, hle⟩
    rw [le_iff_toNanos] at hle ⊢
    rw [roundDown_toNanos, ← Nat.div_mul_cancel hdvd]
    exact Nat.mul_le_mul_right _ (Nat.div_le_div_right hle)

/-- Longer durations have no fewer microseconds. -/
theorem micros_mono (h : d ≤ e) : d.micros ≤ e.micros :=
  Nat.div_le_div_right (le_iff_toNanos.mp h)

end Duration

end Time
