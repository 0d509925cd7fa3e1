import CalcLength.Binary64

namespace CalcLength

/-- The decimal number `coefficient * 10 ^ exponent`. -/
structure Decimal where
  coefficient : Nat
  exponent : Int
deriving DecidableEq, Repr

namespace Decimal

def numerator (d : Decimal) : Nat :=
  d.coefficient * Nat.pow 10 d.exponent.toNat

def denominator (d : Decimal) : Nat :=
  Nat.pow 10 (-d.exponent).toNat

/-- The double nearest to the number, ties to even. -/
def nearest (d : Decimal) : Float :=
  Binary64.nearest d.numerator d.denominator

/-- `nearest`, without the power of ten where the exponent alone settles the answer:
beyond `10 ^ 1100` every number but zero is infinite, and one that lies that far
below `2 ^ (-1074)` is zero. -/
def toFloat (d : Decimal) : Float :=
  if d.coefficient = 0 then Float.ofBits 0
  else if 1100 < d.exponent then Float.ofBits (UInt64.ofNat Binary64.infinityBits)
  else if (d.coefficient.log2 + 1100 : Int) < -d.exponent then Float.ofBits 0
  else d.nearest

/-- The number written without an exponent. A point stands between whole part and fraction if there
is a fraction, and at least one digit stands before the point. -/
def positional (d : Decimal) : List Char :=
  if 0 ≤ d.exponent then Nat.toDigits 10 d.numerator
  else
    let places := (-d.exponent).toNat
    let digits := Nat.toDigits 10 d.coefficient
    let padded := List.replicate (places + 1 - digits.length) '0' ++ digits
    let whole := padded.length - places
    padded.take whole ++ '.' :: padded.drop whole

end Decimal

end CalcLength
