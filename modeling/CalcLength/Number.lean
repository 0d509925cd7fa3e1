import CalcLength.Decimal.Shortest

namespace CalcLength.Number

/-- The text of a finite number's magnitude: the fewest digits that read as
it, never with an exponent. -/
def writeMagnitude (x : Float) : List Char :=
  (Decimal.shortest x).positional

/-- The text of a number. The sign of zero is written, that of a NaN is not. -/
def write (x : Float) : List Char :=
  if x.isNaN then ['N', 'a', 'N']
  else
    let magnitude := if x.isInf then ['i', 'n', 'f'] else writeMagnitude x
    if Binary64.isNegative x then '-' :: magnitude else magnitude

def text (x : Float) : String :=
  String.ofList (write x)

end CalcLength.Number
