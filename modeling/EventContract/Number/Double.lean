/-!
# Numbers of double precision

A finite floating-point number of double precision is a mantissa of at most 53 bits times a power of
two. The result of an operation is the number nearest to the exact one, of two that are equally near
the one with the even mantissa; there is none where that number would not be finite. All of it is
reckoned exactly, in natural numbers.
-/

namespace EventContract

/-- The number `±mantissa · 2 ^ exponent`. The mantissa is less than `2 ^ 53`, and at least `2 ^ 52`
unless the exponent is `-1074`, the least one. -/
structure Double where
  negative : Bool
  mantissa : Nat
  exponent : Int
  deriving DecidableEq, Repr, Inhabited

namespace Double

/-- A quotient rounded to a whole number, a half to the even neighbour. -/
def roundedQuotient (n d : Nat) : Nat :=
  let q := n / d
  let twice := 2 * (n % d)
  if twice < d || (twice == d && q % 2 == 0) then q else q + 1

/-- The exponent of the highest power of two that is not greater than a quotient, neither part of
which is zero. -/
def leadingExponent (n d : Nat) : Int :=
  let e : Int := (n.log2 : Int) - d.log2
  if n * Nat.pow 2 (-e).toNat < d * Nat.pow 2 e.toNat then e - 1 else e

/-- Zero with a sign. -/
def zero (negative : Bool) : Double := ⟨negative, 0, -1074⟩

/-- The number nearest to a quotient with a sign. The divisor is not zero. -/
def nearest? (negative : Bool) (n d : Nat) : Option Double :=
  if n = 0 then some (zero negative)
  else
    let e := max (leadingExponent n d - 52) (-1074)
    let m := roundedQuotient (n * Nat.pow 2 (-e).toNat) (d * Nat.pow 2 e.toNat)
    let (m, e) := if m = Nat.pow 2 53 then (Nat.pow 2 52, e + 1) else (m, e)
    if 971 < e then none else some ⟨negative, m, e⟩

/-- The magnitude is this divided by `divisor`. -/
def dividend (x : Double) : Nat := x.mantissa * Nat.pow 2 x.exponent.toNat

/-- The magnitude is `dividend` divided by this. -/
def divisor (x : Double) : Nat := Nat.pow 2 (-x.exponent).toNat

/-- The product. -/
def mul? (x y : Double) : Option Double :=
  nearest? (x.negative != y.negative) (x.dividend * y.dividend) (x.divisor * y.divisor)

/-- The quotient by a number other than zero. -/
def div? (x y : Double) : Option Double :=
  nearest? (x.negative != y.negative) (x.dividend * y.divisor) (x.divisor * y.dividend)

/-- The greatest power of ten in double precision has this exponent. -/
def greatestTen : Nat := 308

/-- The number nearest to a power of ten. -/
def powerOfTen? (n : Nat) : Option Double :=
  nearest? false (Nat.pow 10 n) 1

/-- The product with a power of ten as it comes out when each step is rounded: one multiplication or
division, before which a power too small for that is taken in steps of the greatest one. A power too
great for it makes any number but zero infinite. -/
def scale? (x : Double) (power : Int) : Option Double :=
  if power.natAbs ≤ greatestTen then do
    let ten ← powerOfTen? power.natAbs
    if 0 ≤ power then x.mul? ten else x.div? ten
  else if x.mantissa = 0 then some x
  else if 0 ≤ power then none
  else do
    let ten ← powerOfTen? greatestTen
    let x ← x.div? ten
    x.scale? (power + greatestTen)
  termination_by power.natAbs
  decreasing_by all_goals (simp only [greatestTen] at *; omega)

end Double

end EventContract
