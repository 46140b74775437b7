import EventContract.Number.Decimal
/-!
# The shortest decimal of a double

Many decimals are nearest to one number of double precision. `Double.shortest` is the one with the
fewest digits, of several the one that is closest to the number, and of two equally close ones the
even one. Seventeen digits always suffice.
-/

namespace EventContract

/-- Without the zeros at the end of its digits. -/
def Decimal.trimmed : Nat → Decimal → Decimal
  | 0, d => d
  | fuel + 1, d =>
    if d.mantissa ≠ 0 && d.mantissa % 10 = 0 then
      trimmed fuel ⟨d.negative, d.mantissa / 10, d.exponent + 1⟩
    else d

namespace Double

/-- Reading a magnitude gives the magnitude of this number. -/
def readsBack (x : Double) (d : Decimal) : Bool :=
  Decimal.toDouble? ⟨x.negative, d.mantissa, d.exponent⟩ == some x

/-- How many digits stand in front of the decimal point of a positive magnitude; a negative number
counts the zeros behind the point. -/
def pointPosition (x : Double) : Int :=
  Decimal.digitCount (x.dividend * Nat.pow 10 330 / x.divisor) - 330

/-- The decimal with `n` digits that is closest to the magnitude among those that read back. -/
def withDigits? (x : Double) (n : Nat) : Option Decimal :=
  let exponent := x.pointPosition - n
  let dividend := x.dividend * Nat.pow 10 (-exponent).toNat
  let divisor := x.divisor * Nat.pow 10 exponent.toNat
  let below := dividend / divisor
  let nearer := roundedQuotient dividend divisor
  let farther := if nearer = below then below + 1 else below
  [nearer, farther].findSome? fun mantissa =>
    let d : Decimal := ⟨x.negative, mantissa, exponent⟩
    if x.readsBack d then some d else none

/-- All digits of the number. -/
def exact (x : Double) : Decimal :=
  ⟨x.negative, x.dividend * Nat.pow 5 (-x.exponent).toNat, min x.exponent 0⟩

/-- The decimal with the fewest digits that reads back as this number. -/
def shortest (x : Double) : Decimal :=
  if x.mantissa = 0 then ⟨x.negative, 0, 0⟩
  else
    let counts := (List.range 17).map (· + 1)
    Decimal.trimmed 17 ((counts.findSome? x.withDigits?).getD x.exact)

end Double

end EventContract
