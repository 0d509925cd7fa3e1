import CalcLength.Decimal.Basic

namespace CalcLength.Decimal

/-- All digits of a finite number, sign apart. -/
def exact (x : Float) : Decimal where
  coefficient := Binary64.units x * Nat.pow 5 1074
  exponent := -1074

/-- Whether the decimal is read as the number, sign apart. -/
def readsBack (x : Float) (d : Decimal) : Bool :=
  Binary64.nearestBits d.numerator d.denominator = Binary64.magnitudeBits x

/-- A power of ten that lifts every positive double to eighteen digits before the point. -/
def lift : Nat := 341

/-- A number's two neighbours on the grid of decimals with `digits` digits, the nearer one first;
the middle goes up. The number is `lifted / (10 ^ lift * Binary64.unitsInOne)`, and `length` counts
the digits of `lifted / Binary64.unitsInOne`. -/
def neighbours (lifted length digits : Nat) : List Decimal :=
  let dropped := length - digits
  let step := Nat.pow 10 dropped * Binary64.unitsInOne
  let below := lifted / step
  let exponent : Int := dropped - lift
  let lower : Decimal := ⟨below, exponent⟩
  let upper : Decimal :=
    if below + 1 = Nat.pow 10 digits then ⟨1, exponent + digits⟩ else ⟨below + 1, exponent⟩
  if 2 * lifted < (2 * below + 1) * step then [lower, upper] else [upper, lower]

/-- The fewest digits that read as the finite number, sign apart, and of those the nearest to it. If
a decimal of some length reads as the number, one of its two neighbours of that length does.
Seventeen digits always suffice; should none be found, all digits are given, so that the answer
reads as the number by its construction. -/
def shortest (x : Float) : Decimal :=
  if Binary64.units x = 0 then ⟨0, 0⟩
  else
    let lifted := Binary64.units x * Nat.pow 10 lift
    let length := (Nat.toDigits 10 (lifted / Binary64.unitsInOne)).length
    ((List.range' 1 17).findSome? fun digits =>
      (neighbours lifted length digits).find? (readsBack x)).getD (exact x)

end CalcLength.Decimal
