import CalcLength.Binary64

namespace CalcLength

/-- A whole number of sixtieths of a pixel, the unit in which layout engines report sizes. -/
structure Sixtieths where
  count : Int32
deriving DecidableEq, Repr

namespace Sixtieths

/-- The largest size that layout comes to. -/
def limit : Int := 0x3FFFFFFF

def isZero (size : Sixtieths) : Bool :=
  size.count == 0

def toPixels (size : Sixtieths) : Float :=
  Binary64.ofInt size.count.toInt / 60

/-- The nearest size, halves going away from zero, within the limit. -/
def ofPixels (x : Float) : Sixtieths :=
  ⟨Int32.ofInt (max (-limit) (min limit (Binary64.roundHalfAway (x * 60))))⟩

end Sixtieths

/-- How wide and how high something is laid out. -/
structure Extent where
  width : Sixtieths
  height : Sixtieths
deriving DecidableEq, Repr

def Extent.isDegenerate (extent : Extent) : Bool :=
  extent.width.isZero || extent.height.isZero

end CalcLength
