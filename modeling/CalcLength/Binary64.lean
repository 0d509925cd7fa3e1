namespace CalcLength.Binary64

/-- The whole number nearest to `num / den`; a half goes to the even neighbour. -/
def roundHalfEven (num den : Nat) : Nat :=
  let below := num / den
  let left := num % den
  if 2 * left < den then below
  else if den < 2 * left then below + 1
  else if below % 2 = 0 then below
  else below + 1

/-- The bits of positive infinity: one more than those of the largest finite number. -/
def infinityBits : Nat := 0x7FF0000000000000

/-- How many times one holds the smallest positive double, the unit in
which doubles are counted here. -/
def unitsInOne : Nat := 1 <<< 1074

/-- The bits of the double nearest to `num / den`.

The value is counted in units of the smallest positive double. Below `2 ^ 53` of them every whole
number is a double and is its own bits; above, each doubling of the value halves the resolution and
moves the bits up by `2 ^ 52`. A round-up that reaches the next power of two lands on the bits of
that power, and beyond the largest double it lands on infinity. -/
def nearestBits (num den : Nat) : Nat :=
  let scaled := num * unitsInOne
  let coarser := (scaled / den).log2 - 52
  min (coarser <<< 52 + roundHalfEven scaled (den <<< coarser)) infinityBits

/-- The double nearest to `num / den`, ties to even. -/
def nearest (num den : Nat) : Float :=
  Float.ofBits (UInt64.ofNat (nearestBits num den))

/-- The double nearest to a whole number. -/
def ofInt : Int → Float
  | .ofNat n => nearest n 1
  | .negSucc n => -nearest (n + 1) 1

/-- Whether the sign bit is set, as it is for `-0`. -/
def isNegative (x : Float) : Bool :=
  0x8000000000000000 ≤ x.toBits.toNat

/-- The bits of the number with its sign bit cleared. -/
def magnitudeBits (x : Float) : Nat :=
  x.toBits.toNat % 0x8000000000000000

def exponentField (x : Float) : Nat :=
  x.toBits.toNat >>> 52 % 0x800

def fractionField (x : Float) : Nat :=
  x.toBits.toNat % 0x10000000000000

/-- The whole number `m` for which a finite number is `m * 2 ^ shift` units, sign apart. -/
def significand (x : Float) : Nat :=
  if exponentField x = 0 then fractionField x else fractionField x + 0x10000000000000

def shift (x : Float) : Nat :=
  exponentField x - 1

/-- The magnitude of a finite number in units of the smallest positive double. -/
def units (x : Float) : Nat :=
  significand x <<< shift x

/-- The whole number next below, as a double. A number that is not finite is its own. -/
def floor (x : Float) : Float :=
  if x.isFinite then
    let whole := units x / unitsInOne
    if isNegative x then
      if units x % unitsInOne = 0 then -nearest whole 1 else -nearest (whole + 1) 1
    else nearest whole 1
  else x

/-- The whole number next to a number, halves going away from zero; zero for a NaN. -/
def roundHalfAway (x : Float) : Int :=
  if x.isNaN then 0
  else
    let size : Int := (2 * units x + unitsInOne) / (2 * unitsInOne)
    if isNegative x then -size else size

/-- The smaller of two numbers, where a NaN does not count. -/
def smaller (x y : Float) : Float :=
  if x.isNaN then y else if y.isNaN then x else if x ≤ y then x else y

/-- The larger of two numbers, where a NaN does not count. -/
def larger (x y : Float) : Float :=
  if x.isNaN then y else if y.isNaN then x else if x ≤ y then y else x

theorem nearestBits_le (num den : Nat) : nearestBits num den ≤ infinityBits :=
  Nat.min_le_right _ _

end CalcLength.Binary64
