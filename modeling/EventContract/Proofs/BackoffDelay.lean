import EventContract.Client.Backoff
import Mathlib.Algebra.Group.Nat.Defs
import Mathlib.Tactic.Common

/-! # The delay before an attempt

Spans are reckoned in whole nanoseconds. There a multiple of a span is the product, cut at the
longest span, and the delay before an attempt is the base delay times a power of two that is cut as
well. Both cuts are far off: before one of them is reached the delay doubles exactly.
-/

namespace EventContract.Client

/-! ## Multiples of a span -/

namespace Duration

theorem totalNanos_longest : longest.totalNanos = 18446744073709551615999999999 := by
  decide

theorem totalMillis_eq (d : Duration) : d.totalMillis = d.totalNanos / 1000000 := by
  simp only [totalMillis, totalNanos, nanosPerSecond]
  omega

theorem totalNanos_le_longest (d : Duration) : d.totalNanos ≤ longest.totalNanos := by
  have hseconds := d.seconds.toNat_lt
  have hnanos := d.nanos_lt
  rw [totalNanos_longest]
  simp only [totalNanos, nanosPerSecond] at hnanos ⊢
  omega

/-- A span is known by its nanoseconds. -/
theorem totalNanos_injective : Function.Injective totalNanos := by
  intro d e h
  have hd := d.nanos_lt
  have he := e.nanos_lt
  simp only [totalNanos, nanosPerSecond] at h hd he
  have hseconds : d.seconds = e.seconds := UInt64.toNat_inj.mp (by omega)
  have hnanos : d.nanos = e.nanos := UInt32.toNat_inj.mp (by omega)
  cases d
  cases e
  cases hseconds
  cases hnanos
  rfl

/-- A multiple in nanoseconds is the product, up to the longest span. -/
theorem totalNanos_times (d : Duration) (factor : UInt32) :
    (d.times factor).totalNanos = min (d.totalNanos * factor.toNat) longest.totalNanos := by
  have hbelow : d.nanos.toNat < 1000000000 := d.nanos_lt
  have hproduct : d.nanos.toNat * factor.toNat < 2 ^ 64 :=
    Nat.lt_of_le_of_lt (Nat.mul_le_mul (Nat.le_of_lt hbelow) (Nat.le_of_lt factor.toNat_lt))
      (by decide)
  have hnanos : (d.nanos.toUInt64 * factor.toUInt64).toNat = d.nanos.toNat * factor.toNat := by
    rw [UInt64.toNat_mul, UInt32.toNat_toUInt64, UInt32.toNat_toUInt64, Nat.mod_eq_of_lt hproduct]
  -- The product falls apart at the seconds: what the nanoseconds make up is carried over.
  have hsplit : d.totalNanos * factor.toNat =
      d.seconds.toNat * factor.toNat * 1000000000 + d.nanos.toNat * factor.toNat := by
    rw [totalNanos, nanosPerSecond, Nat.add_mul, Nat.mul_right_comm]
  rw [hsplit, totalNanos_longest]
  generalize hseconds : d.seconds.toNat * factor.toNat = seconds
  generalize d.nanos.toNat * factor.toNat = nanos at hnanos hproduct
  have hcarry : (d.nanos.toUInt64 * factor.toUInt64 / 1000000000).toNat = nanos / 1000000000 := by
    rw [UInt64.toNat_div, hnanos]
    rfl
  unfold times
  simp only [hseconds, hcarry]
  split
  next hfits =>
    replace hfits : seconds + nanos / 1000000000 < 2 ^ 64 := hfits
    have hrest : (d.nanos.toUInt64 * factor.toUInt64 % 1000000000).toUInt32.toNat =
        nanos % 1000000000 := by
      rw [UInt64.toNat_toUInt32, UInt64.toNat_mod, hnanos]
      exact Nat.mod_eq_of_lt (Nat.lt_trans (Nat.mod_lt _ (by decide)) (by decide))
    have hwhole : (d.seconds * factor.toUInt64 +
        d.nanos.toUInt64 * factor.toUInt64 / 1000000000).toNat = seconds + nanos / 1000000000 := by
      rw [UInt64.toNat_add, UInt64.toNat_mul, UInt32.toNat_toUInt64, hseconds, hcarry,
        Nat.mod_add_mod, Nat.mod_eq_of_lt hfits]
    rw [Nat.min_eq_left (by omega)]
    simp only [totalNanos, hwhole, hrest, nanosPerSecond]
    omega
  next hlong =>
    replace hlong : ¬ seconds + nanos / 1000000000 < 2 ^ 64 := hlong
    rw [totalNanos_longest]
    omega

end Duration

/-! ## Doubling -/

namespace Backoff

theorem toNat_factor (attempt : UInt32) :
    (factor attempt).toNat = min (2 ^ (attempt.toNat - 1)) 4294967295 := by
  have hdoublings : (if attempt = 0 then 0 else attempt - 1).toNat = attempt.toNat - 1 := by
    split
    next hzero => rw [hzero]; rfl
    next hpositive =>
      have hone : 1 ≤ attempt := by
        rw [UInt32.le_iff_toNat_le]
        exact Nat.pos_of_ne_zero fun h => hpositive (UInt32.toNat_inj.mp h)
      exact UInt32.toNat_sub_of_le _ _ hone
  simp only [factor]
  generalize (if attempt = 0 then 0 else attempt - 1) = doublings at hdoublings
  rw [← hdoublings]
  split
  next hfits =>
    have hlt : doublings.toNat < 32 := UInt32.lt_iff_toNat_lt.mp hfits
    have hpow : 2 ^ doublings.toNat ≤ 2 ^ 31 := Nat.pow_le_pow_right (by decide) (by omega)
    rw [UInt32.toNat_shiftLeft, Nat.mod_eq_of_lt hlt, Nat.shiftLeft_eq, UInt32.toNat_one,
      Nat.one_mul, Nat.mod_eq_of_lt (by omega), Nat.min_eq_left (by omega)]
  next hlarge =>
    have hge : 32 ≤ doublings.toNat :=
      Nat.le_of_not_lt fun h => hlarge (UInt32.lt_iff_toNat_lt.mpr h)
    have hpow : 2 ^ 32 ≤ 2 ^ doublings.toNat := Nat.pow_le_pow_right (by decide) hge
    rw [Nat.min_eq_right (by omega)]
    rfl

/-- A delay in nanoseconds is the base delay times a power of two, with both of its cuts. -/
theorem totalNanos_delay (backoff : Backoff) (attempt : UInt32) :
    (backoff.delay attempt).totalNanos =
      min (backoff.baseDelay.totalNanos * min (2 ^ (attempt.toNat - 1)) 4294967295)
        Duration.longest.totalNanos := by
  rw [delay, Duration.totalNanos_times, toNat_factor]

/-- The delay before an attempt is the base delay, doubled for each attempt before it: neither the
power of two nor the span is cut. -/
def Doubles (backoff : Backoff) (attempt : UInt32) : Prop :=
  backoff.baseDelay.totalMillis = 0 ∨
    attempt ≤ 32 ∧ backoff.baseDelay.totalMillis * 2 ^ (attempt.toNat - 1) ≤
      Duration.longest.totalMillis

theorem Doubles.of_le {backoff : Backoff} {attempt attempt' : UInt32}
    (h : backoff.Doubles attempt') (hle : attempt ≤ attempt') : backoff.Doubles attempt := by
  rcases h with hzero | ⟨hlate, hdelay⟩
  · exact .inl hzero
  · have hpow : 2 ^ (attempt.toNat - 1) ≤ 2 ^ (attempt'.toNat - 1) :=
      Nat.pow_le_pow_right (by decide) (Nat.sub_le_sub_right (UInt32.le_iff_toNat_le.mp hle) 1)
    exact .inr ⟨UInt32.le_trans hle hlate,
      Nat.le_trans (Nat.mul_le_mul_left _ hpow) hdelay⟩

theorem totalMillis_delay {backoff : Backoff} (hmillis : 1000000 ∣ backoff.baseDelay.totalNanos)
    (attempt : UInt32) : (backoff.delay attempt).totalMillis =
      min (backoff.baseDelay.totalMillis * min (2 ^ (attempt.toNat - 1)) 4294967295)
        Duration.longest.totalMillis := by
  obtain ⟨millis, hmillis⟩ := hmillis
  simp only [Duration.totalMillis_eq, totalNanos_delay, hmillis,
    Duration.totalNanos_longest, Nat.mul_assoc,
    Nat.mul_div_cancel_left millis (by decide : 0 < 1000000)]
  generalize min (2 ^ (attempt.toNat - 1)) 4294967295 = factor
  generalize millis * factor = product
  omega

/-- With a base delay in whole milliseconds, a delay is as long as unlimited doubling makes it
exactly where neither cut is reached. -/
theorem totalMillis_delay_eq_iff {backoff : Backoff}
    (hmillis : 1000000 ∣ backoff.baseDelay.totalNanos) (attempt : UInt32) :
    (backoff.delay attempt).totalMillis =
        backoff.baseDelay.totalMillis * 2 ^ (attempt.toNat - 1) ↔ backoff.Doubles attempt := by
  have hattempt : attempt ≤ 32 ↔ attempt.toNat ≤ 32 := UInt32.le_iff_toNat_le
  rw [totalMillis_delay hmillis, Doubles, hattempt]
  generalize backoff.baseDelay.totalMillis = base
  generalize Duration.longest.totalMillis = longest
  rcases Nat.eq_zero_or_pos base with rfl | hpositive
  · simp
  rcases Nat.lt_or_ge 32 attempt.toNat with hlate | hearly
  · have hpow : 2 ^ 32 ≤ 2 ^ (attempt.toNat - 1) := Nat.pow_le_pow_right (by decide) (by omega)
    have hcut : base * 4294967295 < base * 2 ^ (attempt.toNat - 1) :=
      Nat.mul_lt_mul_of_pos_left (by omega) hpositive
    rw [Nat.min_eq_right (by omega : 4294967295 ≤ 2 ^ (attempt.toNat - 1))]
    omega
  · have hpow : 2 ^ (attempt.toNat - 1) ≤ 2 ^ 31 := Nat.pow_le_pow_right (by decide) (by omega)
    rw [Nat.min_eq_left (by omega : 2 ^ (attempt.toNat - 1) ≤ 4294967295)]
    omega

/-! ## Delays compared -/

/-- A later attempt waits no shorter, and neither does a longer base delay. -/
theorem totalNanos_delay_mono {backoff longer : Backoff} {earlier later : UInt32}
    (hbase : backoff.baseDelay.totalNanos ≤ longer.baseDelay.totalNanos)
    (hattempt : earlier ≤ later) :
    (backoff.delay earlier).totalNanos ≤ (longer.delay later).totalNanos := by
  have hpow : 2 ^ (earlier.toNat - 1) ≤ 2 ^ (later.toNat - 1) :=
    Nat.pow_le_pow_right (by decide) (Nat.sub_le_sub_right (UInt32.le_iff_toNat_le.mp hattempt) 1)
  have hfactor : min (2 ^ (earlier.toNat - 1)) 4294967295 ≤
      min (2 ^ (later.toNat - 1)) 4294967295 := by omega
  have hproduct := Nat.mul_le_mul hbase hfactor
  rw [totalNanos_delay, totalNanos_delay]
  omega

/-- Up to the 32nd attempt the power of two is not cut. -/
theorem totalNanos_delay_of_le {backoff : Backoff} {attempt : UInt32} (h : attempt.toNat ≤ 32) :
    (backoff.delay attempt).totalNanos =
      min (backoff.baseDelay.totalNanos * 2 ^ (attempt.toNat - 1)) Duration.longest.totalNanos := by
  have hpow : 2 ^ (attempt.toNat - 1) ≤ 2 ^ 31 := Nat.pow_le_pow_right (by decide) (by omega)
  rw [totalNanos_delay, Nat.min_eq_left (by omega : 2 ^ (attempt.toNat - 1) ≤ 4294967295)]

/-- Each of the first 32 delays is twice the one before it, unless that exceeds the longest span. -/
theorem totalNanos_delay_succ {backoff : Backoff} {attempt : UInt32} (hfirst : 1 ≤ attempt)
    (hlast : attempt < 32)
    (hfits : 2 * (backoff.delay attempt).totalNanos ≤ Duration.longest.totalNanos) :
    (backoff.delay (attempt + 1)).totalNanos = 2 * (backoff.delay attempt).totalNanos := by
  have hone : 1 ≤ attempt.toNat := UInt32.le_iff_toNat_le.mp hfirst
  have hbound : attempt.toNat < 32 := UInt32.lt_iff_toNat_lt.mp hlast
  have hnext : (attempt + 1).toNat = attempt.toNat + 1 := by
    rw [UInt32.toNat_add, UInt32.toNat_one, Nat.mod_eq_of_lt (by omega)]
  have hpow : 2 ^ attempt.toNat = 2 ^ (attempt.toNat - 1) * 2 := by
    rw [← Nat.pow_succ, Nat.succ_eq_add_one, Nat.sub_add_cancel hone]
  rw [totalNanos_delay_of_le (by omega)] at hfits
  rw [totalNanos_delay_of_le (by omega), totalNanos_delay_of_le (by omega), hnext,
    Nat.add_sub_cancel, hpow, ← Nat.mul_assoc]
  have hlongest : 0 < Duration.longest.totalNanos := by decide
  generalize backoff.baseDelay.totalNanos * 2 ^ (attempt.toNat - 1) = exact at hfits ⊢
  omega

/-- From the 33rd attempt on the power of two is cut, and every delay is the same. -/
theorem delay_of_ge (backoff : Backoff) {attempt : UInt32} (h : 33 ≤ attempt) :
    backoff.delay attempt = backoff.delay 33 := by
  have hlate : 33 ≤ attempt.toNat := UInt32.le_iff_toNat_le.mp h
  have hpow : 2 ^ 32 ≤ 2 ^ (attempt.toNat - 1) := Nat.pow_le_pow_right (by decide) (by omega)
  have hcut : min (2 ^ (attempt.toNat - 1)) 4294967295 = 4294967295 :=
    Nat.min_eq_right (by omega)
  apply Duration.totalNanos_injective
  rw [totalNanos_delay, hcut, totalNanos_delay]
  rfl

/-- A delay is reckoned without loss: in nanoseconds it is the base delay times a power of two,
where the power is cut at 32 bits and the product at the longest span. So delays never become
shorter, neither by a further attempt nor by a longer base delay; they double exactly up to the 32nd
attempt while the longest span allows it, and stay the same from the 33rd on. -/
theorem delay_exact (backoff : Backoff) :
    (∀ attempt, (backoff.delay attempt).totalNanos =
        min (backoff.baseDelay.totalNanos * min (2 ^ (max attempt.toNat 1 - 1)) (2 ^ 32 - 1))
          Duration.longest.totalNanos) ∧
      (Duration.longest.totalNanos = 18446744073709551615 * 10 ^ 9 + 999999999 ∧
        ∀ span : Duration, span.totalNanos ≤ Duration.longest.totalNanos) ∧
      (∀ (longer : Backoff) earlier later,
        backoff.baseDelay.totalNanos ≤ longer.baseDelay.totalNanos → earlier ≤ later →
          (backoff.delay earlier).totalNanos ≤ (longer.delay later).totalNanos) ∧
      (∀ attempt, 1 ≤ attempt → attempt < 32 →
        2 * (backoff.delay attempt).totalNanos ≤ Duration.longest.totalNanos →
          (backoff.delay (attempt + 1)).totalNanos = 2 * (backoff.delay attempt).totalNanos) ∧
      ∀ attempt, 33 ≤ attempt → backoff.delay attempt = backoff.delay 33 := by
  refine ⟨fun attempt => ?_, ⟨Duration.totalNanos_longest, Duration.totalNanos_le_longest⟩, ?_, ?_,
    ?_⟩
  · have hdoublings : max attempt.toNat 1 - 1 = attempt.toNat - 1 := by omega
    rw [totalNanos_delay, hdoublings]
    rfl
  · intro longer earlier later hbase hattempt
    exact totalNanos_delay_mono hbase hattempt
  · intro attempt hfirst hlast hfits
    exact totalNanos_delay_succ hfirst hlast hfits
  · intro attempt hlate
    exact backoff.delay_of_ge hlate

/-- A base delay of a second and a half. -/
def unhurried : Backoff := ⟨⟨1, 500000000, by decide⟩, 40⟩

/-- The last delay that is double the one before, and the cut of the power behind it. -/
theorem delay_exact_unhurried :
    (unhurried.delay 32).totalNanos = 1500000000 * 2 ^ 31 ∧
      (unhurried.delay 32).totalNanos = 2 * (unhurried.delay 31).totalNanos ∧
      (unhurried.delay 33).totalNanos = 1500000000 * (2 ^ 32 - 1) ∧
      unhurried.delay 4294967295 = unhurried.delay 33 ∧
      (default.delay 0).totalNanos ≤ (unhurried.delay 1).totalNanos := by
  obtain ⟨hexact, -, -, hdouble, hcut⟩ := delay_exact unhurried
  obtain ⟨-, -, hmono, -, -⟩ := delay_exact default
  refine ⟨?_, ?_, ?_, ?_, ?_⟩
  · rw [hexact 32]
    decide
  · exact hdouble 31 (by decide) (by decide) (by decide)
  · rw [hexact 33]
    decide
  · exact hcut 4294967295 (by decide)
  · exact hmono unhurried 0 1 (by decide) (by decide)

end Backoff

end EventContract.Client
