import PicoquicRs.Lib.Duration

/-!
# Microseconds, and the interval of the keep-alive packets

picoquic counts in microseconds, in one word (`MicroSeconds`, `ffi/quic_ctx.rs`), and the
application in durations, whose seconds alone fill a word. The interval that
`Config::enable_keep_alive` is given is looked at by nobody on its way to picoquic:

* `Config.enableKeepAlive` – the interval as the application sets it;
* `Config.keepAliveIntervals` – which of the connections get it (`ContextInner::new`);
* `createBuilder` – what a new connection hands to picoquic;
* `KeepAliveFits` – the intervals for which it does not overflow.

Every word survives the way into a duration and back. A duration survives the way into a
word, up to the nanoseconds that do not fill a microsecond, **exactly when it is shorter
than `2 ^ 64` microseconds** (`micro_seconds_convert_iff`).
-/

namespace PicoquicRs

open Time

/-! ### The conversions -/

namespace MicroSeconds

/-- `MicroSeconds::from_micro_seconds` -/
def fromMicroSeconds (checks : Bool) (micros : UInt64) : Option Duration := do
  let secs := micros / 1000000
  let nanos ← mul checks (micros % 1000000) 1000
  Duration.new secs nanos.toUInt32

/-- `MicroSeconds::as_micro_seconds` -/
def asMicroSeconds (checks : Bool) (d : Duration) : Option UInt64 := do
  let secs ← mul checks d.secs 1000000
  add checks secs (d.nanos.toUInt64 / 1000)

end MicroSeconds

/-! ### The way of the interval -/

/-- `Role` -/
inductive Role where
  | server
  | client
  deriving DecidableEq, Repr

/-- `Config`: who sends keep-alive packets, and how often. -/
structure Config where
  /-- `keep_alive_interval` -/
  keepAliveInterval : Option Duration
  /-- `keep_alive_sender` -/
  keepAliveSender : Role
  deriving DecidableEq, Repr

namespace Config

/-- `Config::default` -/
def default : Config where
  keepAliveInterval := none
  keepAliveSender := .client

/-- `Config::enable_keep_alive` -/
def enableKeepAlive (c : Config) (dur : Duration) : Config :=
  { c with keepAliveInterval := some dur }

/-- The intervals of the connections that are made here and of those that come in, as
`ContextInner::new` takes them from its configuration. -/
def keepAliveIntervals (c : Config) : Option Duration × Option Duration :=
  match c.keepAliveSender with
  | .client => (c.keepAliveInterval, none)
  | .server => (none, c.keepAliveInterval)

end Config

/-- `ffi::Connection::enable_keep_alive`: the interval that picoquic is handed. -/
def enableKeepAlive (checks : Bool) (interval : Duration) : Option UInt64 :=
  MicroSeconds.asMicroSeconds checks interval

/-- What `Connection::create_builder` hands to picoquic; `some none` where it enables
nothing. -/
def createBuilder (checks : Bool) (keepAliveInterval : Option Duration) : Option (Option UInt64) :=
  match keepAliveInterval with
  | some interval => (enableKeepAlive checks interval).map some
  | none => some none

/-- What the connections of the side `role` hand to picoquic. -/
def Config.handed (checks : Bool) (c : Config) (role : Role) : Option (Option UInt64) :=
  match role with
  | .client => createBuilder checks c.keepAliveIntervals.1
  | .server => createBuilder checks c.keepAliveIntervals.2

/-! ### What the conversions give -/

namespace MicroSeconds

variable {checks : Bool} {m m' v : UInt64} {d e : Duration}

/-- **Every word can be converted**, whatever the build, to a duration that is as long. -/
theorem exists_fromMicroSeconds (checks : Bool) (m : UInt64) :
    ∃ d, fromMicroSeconds checks m = some d ∧ d.toNanos = m.toNat * 1000 := by
  have hm : (m % 1000000).toNat = m.toNat % 1000000 := UInt64.toNat_mod _ _
  -- the nanoseconds over fit into the word, and then into half of one
  have hlt : m.toNat % 1000000 * 1000 < 1000000000 := by omega
  have hsize : m.toNat % 1000000 * 1000 < UInt64.size := lt_trans hlt (by decide)
  have hn : (m % 1000000 * 1000).toNat = m.toNat % 1000000 * 1000 := by
    rw [UInt64.toNat_mul, hm]
    exact Nat.mod_eq_of_lt hsize
  have hmul : mul checks (m % 1000000) 1000 = some (m % 1000000 * 1000) := by
    rw [mul_eq_some, hn, hm]
    exact ⟨(Nat.mod_eq_of_lt hsize).symm, fun _ => hsize⟩
  have h32 : (m % 1000000 * 1000).toUInt32.toNat = m.toNat % 1000000 * 1000 := by
    rw [UInt64.toNat_toUInt32, hn]
    exact Nat.mod_eq_of_lt (lt_trans hlt (by decide))
  have hdiv : (m / 1000000).toNat = m.toNat / 1000000 := UInt64.toNat_div _ _
  refine ⟨⟨m / 1000000, (m % 1000000 * 1000).toUInt32, by rw [h32]; exact hlt⟩, ?_, ?_⟩
  · rw [fromMicroSeconds, hmul]
    exact Duration.new_of_lt _
  · simp only [Duration.toNanos, hdiv, h32]
    omega

theorem fromMicroSeconds_eq_some :
    fromMicroSeconds checks m = some d ↔ d.toNanos = m.toNat * 1000 := by
  obtain ⟨e, he, hlen⟩ := exists_fromMicroSeconds checks m
  rw [he, Option.some_inj, ← hlen, Duration.toNanos_inj, eq_comm]

/-- The microseconds of a duration are those that are full, as far as they fit into the
word; a build that checks goes on only where they do. -/
theorem asMicroSeconds_eq_some :
    asMicroSeconds checks d = some v ↔
      v.toNat = d.micros % UInt64.size ∧ (checks = true → d.micros < UInt64.size) := by
  have hn : (d.nanos.toUInt64 / 1000).toNat = d.nanos.toNat / 1000 := by
    rw [UInt64.toNat_div, UInt32.toNat_toUInt64]
    rfl
  have hmicros : d.micros = d.secs.toNat * 1000000 + d.nanos.toNat / 1000 := by
    simp only [Duration.micros, Duration.toNanos]
    omega
  have hlit : (1000000 : UInt64).toNat = 1000000 := rfl
  rw [hmicros]
  simp only [asMicroSeconds, Option.bind_eq_bind, Option.bind_eq_some_iff, mul_eq_some,
    add_eq_some, hn, hlit]
  constructor
  · rintro ⟨s, ⟨hs, hmul⟩, hv, hadd⟩
    rw [hv, hs, Nat.mod_add_mod]
    refine ⟨rfl, fun hc => ?_⟩
    have hexact : s.toNat = d.secs.toNat * 1000000 := hs.trans (Nat.mod_eq_of_lt (hmul hc))
    rw [← hexact]
    exact hadd hc
  · rintro ⟨hv, hfits⟩
    have hs : (d.secs * 1000000).toNat = d.secs.toNat * 1000000 % UInt64.size :=
      UInt64.toNat_mul _ _
    have hmul (hc : checks = true) : d.secs.toNat * 1000000 < UInt64.size :=
      lt_of_le_of_lt (Nat.le_add_right _ _) (hfits hc)
    refine ⟨d.secs * 1000000, ⟨hs, hmul⟩, ?_, fun hc => ?_⟩
    · rw [hv, hs, Nat.mod_add_mod]
    · rw [hs, Nat.mod_eq_of_lt (hmul hc)]
      exact hfits hc

/-- A word is got back from its duration. -/
theorem asMicroSeconds_of_fromMicroSeconds (h : fromMicroSeconds checks m = some d) :
    asMicroSeconds checks d = some m := by
  have hmicros : d.micros = m.toNat := by
    rw [Duration.micros, fromMicroSeconds_eq_some.mp h]
    exact Nat.mul_div_cancel _ (by decide)
  rw [asMicroSeconds_eq_some, hmicros]
  exact ⟨(Nat.mod_eq_of_lt m.toNat_lt_size).symm, fun _ => m.toNat_lt_size⟩

theorem fromMicroSeconds_mono (hle : m ≤ m') (hd : fromMicroSeconds checks m = some d)
    (he : fromMicroSeconds checks m' = some e) : d ≤ e := by
  rw [Duration.le_iff_toNanos, fromMicroSeconds_eq_some.mp hd, fromMicroSeconds_eq_some.mp he]
  exact Nat.mul_le_mul_right _ (UInt64.le_iff_toNat_le.mp hle)

/-- The full microseconds of a duration fit into a word when it is short enough. -/
theorem micros_lt_size : d.micros < UInt64.size ↔ d.toNanos < UInt64.size * 1000 :=
  Nat.div_lt_iff_lt_mul (by decide)

/-- **A duration that is short enough has all of its microseconds converted.** -/
theorem exists_asMicroSeconds (checks : Bool) (h : d.toNanos < UInt64.size * 1000) :
    ∃ v, asMicroSeconds checks d = some v ∧ v.toNat = d.micros := by
  have hlt := micros_lt_size.mpr h
  have hv : (UInt64.ofNat d.micros).toNat = d.micros := UInt64.toNat_ofNat_of_lt' hlt
  refine ⟨UInt64.ofNat d.micros, ?_, hv⟩
  rw [asMicroSeconds_eq_some, hv]
  exact ⟨(Nat.mod_eq_of_lt hlt).symm, fun _ => hlt⟩

/-- **No other duration has**: one is handed out that is shorter, or nothing is. -/
theorem lt_of_asMicroSeconds (hv : v.toNat = d.micros) : d.toNanos < UInt64.size * 1000 :=
  micros_lt_size.mp (hv ▸ v.toNat_lt_size)

/-- **Up to a length that is short enough, longer durations have no fewer microseconds**;
beyond it the first that does not fit has fewer than the one before it, or none. -/
theorem asMicroSeconds_mono_iff :
    (∀ e e', e ≤ e' → e' ≤ d → ∃ v v', asMicroSeconds checks e = some v ∧
      asMicroSeconds checks e' = some v' ∧ v ≤ v') ↔ d.toNanos < UInt64.size * 1000 := by
  constructor
  · intro h
    by_contra hlong
    obtain ⟨e, he⟩ := Duration.exists_toNanos (n := (UInt64.size - 1) * 1000) (by decide)
    obtain ⟨e', he'⟩ := Duration.exists_toNanos (n := UInt64.size * 1000) (by decide)
    obtain ⟨v, v', hv, hv', hle⟩ := h e e'
      (by rw [Duration.le_iff_toNanos, he, he']; exact Nat.mul_le_mul_right _ (Nat.sub_le _ _))
      (by rw [Duration.le_iff_toNanos, he']; exact not_lt.mp hlong)
    have hm : e.micros = UInt64.size - 1 := by rw [Duration.micros, he]; rfl
    have hm' : e'.micros = UInt64.size := by rw [Duration.micros, he']; rfl
    have hmax : v.toNat = UInt64.size - 1 := by
      rw [(asMicroSeconds_eq_some.mp hv).1, hm]
      rfl
    have hzero : v'.toNat = 0 := by
      rw [(asMicroSeconds_eq_some.mp hv').1, hm', Nat.mod_self]
    rw [UInt64.le_iff_toNat_le, hmax, hzero] at hle
    exact absurd hle (by decide)
  · intro h e e' hle hd
    have he' : e'.toNanos < UInt64.size * 1000 :=
      lt_of_le_of_lt (Duration.le_iff_toNanos.mp hd) h
    have he : e.toNanos < UInt64.size * 1000 :=
      lt_of_le_of_lt (Duration.le_iff_toNanos.mp hle) he'
    obtain ⟨v, hv, hm⟩ := exists_asMicroSeconds checks he
    obtain ⟨v', hv', hm'⟩ := exists_asMicroSeconds checks he'
    refine ⟨v, v', hv, hv', ?_⟩
    rw [UInt64.le_iff_toNat_le, hm, hm']
    exact Duration.micros_mono hle

/-- A build that does not check converts every duration, and one that checks those whose
microseconds fit into the word. -/
theorem exists_asMicroSeconds_iff :
    (∃ v, asMicroSeconds checks d = some v) ↔ (checks = true → d.micros < UInt64.size) := by
  constructor
  · rintro ⟨v, hv⟩
    exact (asMicroSeconds_eq_some.mp hv).2
  · intro h
    exact ⟨UInt64.ofNat d.micros, asMicroSeconds_eq_some.mpr ⟨UInt64.toNat_ofNat', h⟩⟩

end MicroSeconds

/-! ### The interval -/

open MicroSeconds

variable {checks : Bool} {keepAliveInterval : Option Duration}

/-- **The interval can be handed to picoquic**, if one is set: where the build checks, its
microseconds fit into a word. -/
def KeepAliveFits (checks : Bool) (keepAliveInterval : Option Duration) : Prop :=
  ∀ d ∈ keepAliveInterval, checks = true → d.micros < UInt64.size

instance : Decidable (KeepAliveFits checks keepAliveInterval) :=
  inferInstanceAs (Decidable (∀ d ∈ keepAliveInterval, _))

/-- **Else a connection cannot be made.** -/
theorem exists_createBuilder_iff :
    (∃ v, createBuilder checks keepAliveInterval = some v) ↔
      KeepAliveFits checks keepAliveInterval := by
  cases keepAliveInterval with
  | none => exact iff_of_true ⟨none, rfl⟩ fun d hd => absurd hd (by simp)
  | some d =>
    simp only [createBuilder, enableKeepAlive, KeepAliveFits, Option.mem_some, forall_eq',
      ← exists_asMicroSeconds_iff]
    constructor
    · rintro ⟨v, hv⟩
      exact (Option.map_eq_some_iff.mp hv).imp fun _ h => h.1
    · rintro ⟨v, hv⟩
      exact ⟨some v, by rw [hv]; rfl⟩

/-- The side that sends keep-alive packets hands over the interval that was set, and the
other side none. -/
theorem handed_enableKeepAlive (c : Config) (d : Duration) (role : Role) :
    (c.enableKeepAlive d).handed checks role =
      if role = c.keepAliveSender then (enableKeepAlive checks d).map some else some none := by
  cases role <;> cases h : c.keepAliveSender <;>
    simp [Config.handed, Config.keepAliveIntervals, Config.enableKeepAlive, h, createBuilder]

/-- **The conversions lose nothing exactly below `2 ^ 64` microseconds.** Every word of
microseconds becomes a duration that is as long and becomes the word again, and longer words
become longer durations. The interval that an application sets is handed to picoquic without
an overflow, and stands for the interval rounded down to whole microseconds, exactly when it
is short enough; and so are the durations up to which the conversion keeps the order. -/
theorem micro_seconds_convert_iff (checks : Bool) :
    (∀ m, ∃ d, fromMicroSeconds checks m = some d ∧ d.toNanos = m.toNat * 1000 ∧
      asMicroSeconds checks d = some m) ∧
    (∀ m m', m ≤ m' → ∃ d d', fromMicroSeconds checks m = some d ∧
      fromMicroSeconds checks m' = some d' ∧ d ≤ d') ∧
    (∀ (c : Config) (d : Duration),
      (∃ v d', (c.enableKeepAlive d).handed checks c.keepAliveSender = some (some v) ∧
        v.toNat = d.micros ∧ fromMicroSeconds checks v = some d' ∧ d.RoundsDown d') ↔
      d.toNanos < UInt64.size * 1000) ∧
    ∀ d : Duration,
      (∀ e e', e ≤ e' → e' ≤ d → ∃ v v', asMicroSeconds checks e = some v ∧
        asMicroSeconds checks e' = some v' ∧ v ≤ v') ↔
      d.toNanos < UInt64.size * 1000 := by
  refine ⟨fun m => ?_, fun m m' hle => ?_, fun c d => ⟨?_, fun h => ?_⟩,
    fun d => asMicroSeconds_mono_iff⟩
  · obtain ⟨d, hd, hlen⟩ := exists_fromMicroSeconds checks m
    exact ⟨d, hd, hlen, asMicroSeconds_of_fromMicroSeconds hd⟩
  · obtain ⟨d, hd, -⟩ := exists_fromMicroSeconds checks m
    obtain ⟨d', hd', -⟩ := exists_fromMicroSeconds checks m'
    exact ⟨d, d', hd, hd', fromMicroSeconds_mono hle hd hd'⟩
  · rintro ⟨v, d', -, hv, -⟩
    exact lt_of_asMicroSeconds hv
  · obtain ⟨v, hv, hexact⟩ := exists_asMicroSeconds checks h
    refine ⟨v, d.roundDown, ?_, hexact, ?_, Duration.roundsDown_roundDown d⟩
    · rw [handed_enableKeepAlive, if_pos rfl, enableKeepAlive, hv]
      rfl
    · rw [fromMicroSeconds_eq_some, Duration.roundDown_toNanos, hexact]

/-- The interval of the most seconds that a word can count stops a build that checks, and
has another hand over an interval that is shorter. -/
theorem keep_alive_of_most_seconds :
    (Config.default.enableKeepAlive (Duration.fromSecs 18446744073709551615)).handed true .client =
      none ∧
    (Config.default.enableKeepAlive (Duration.fromSecs 18446744073709551615)).handed false .client =
      some (some 18446744073708551616) ∧
    fromMicroSeconds false 18446744073708551616 ≠
      some (Duration.fromSecs 18446744073709551615).roundDown := by
  decide

end PicoquicRs
