import EventContract.Number.Double
/-!
# Decimals

A number as it is written: digits and a power of ten. It is exact, and `toDouble?` is the number of
double precision that is nearest to it.
-/

namespace EventContract

/-- The exact decimal `±mantissa · 10 ^ exponent`. -/
structure Decimal where
  negative : Bool
  mantissa : Nat
  exponent : Int
  deriving DecidableEq, Repr, Inhabited

namespace Decimal

/-- Number of decimal digits of a positive number, and 1 for zero. -/
def digitCount (n : Nat) : Nat :=
  (Nat.toDigits 10 n).length

/-- The nearest number of double precision, if that is finite. Where the decimal point stands tells
this already for numbers that are far too great or too small. -/
def toDouble? (d : Decimal) : Option Double :=
  let point := d.exponent + digitCount d.mantissa
  if d.mantissa = 0 || point < -400 then some (.zero d.negative)
  else if 400 < point then none
  else Double.nearest? d.negative (d.mantissa * Nat.pow 10 d.exponent.toNat)
    (Nat.pow 10 (-d.exponent).toNat)

end Decimal

end EventContract
