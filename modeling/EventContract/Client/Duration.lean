/-!
# Spans of time

A span is a number of whole seconds, held in 64 bits, and of nanoseconds below a full second.
Arithmetic that would exceed the longest span gives the longest span.
-/

namespace EventContract.Client

/-- Nanoseconds in a second. -/
def nanosPerSecond : Nat := 1000000000

/-- A span of time. -/
structure Duration where
  seconds : UInt64
  nanos : UInt32
  nanos_lt : nanos.toNat < nanosPerSecond

namespace Duration

/-- The longest span. -/
def longest : Duration :=
  ⟨18446744073709551615, 999999999, by decide⟩

/-- The whole number of nanoseconds. -/
def totalNanos (d : Duration) : Nat :=
  d.seconds.toNat * nanosPerSecond + d.nanos.toNat

/-- The span of the given nanoseconds, or the longest one. -/
def ofNanos (n : Nat) : Duration :=
  if n / nanosPerSecond < UInt64.size then
    { seconds := UInt64.ofNat (n / nanosPerSecond)
      nanos := UInt32.ofNat (n % nanosPerSecond)
      nanos_lt := by
        have : n % nanosPerSecond < nanosPerSecond := Nat.mod_lt _ (by decide)
        rw [UInt32.toNat_ofNat_of_lt' (Nat.lt_trans this (by decide))]
        exact this }
  else longest

/-- The span of the given milliseconds. -/
def ofMillis (n : UInt64) : Duration :=
  ofNanos (n.toNat * 1000000)

/-- The milliseconds in a span, rounded down. -/
def totalMillis (d : Duration) : Nat :=
  d.seconds.toNat * 1000 + d.nanos.toNat / 1000000

/-- A multiple of a span. The two parts are multiplied apart, and whole seconds among the
nanoseconds are carried over; what exceeds 64 bits of seconds is the longest span. -/
def times (d : Duration) (factor : UInt32) : Duration :=
  let nanos := d.nanos.toUInt64 * factor.toUInt64
  let carry := nanos / 1000000000
  let seconds := d.seconds.toNat * factor.toNat
  if seconds + carry.toNat < UInt64.size then
    { seconds := d.seconds * factor.toUInt64 + carry
      nanos := (nanos % 1000000000).toUInt32
      nanos_lt := by
        have h : (nanos % 1000000000).toNat < 1000000000 := by
          rw [UInt64.toNat_mod]
          exact Nat.mod_lt _ (by decide)
        rw [UInt64.toNat_toUInt32, Nat.mod_eq_of_lt (Nat.lt_trans h (by decide))]
        exact h }
  else longest

end Duration

instance : Inhabited Duration := ⟨Duration.longest⟩

instance : DecidableEq Duration := fun a b =>
  if h : a.seconds = b.seconds ∧ a.nanos = b.nanos then
    .isTrue (by cases a; cases b; simp_all)
  else
    .isFalse (by intro e; exact h ⟨by rw [e], by rw [e]⟩)

end EventContract.Client
