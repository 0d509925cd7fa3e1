import CalcLength.Fault

namespace CalcLength

/-- What the units that depend on a container come to in it, in pixels. -/
structure Scale where
  percentOfWidth : Float
  percentOfHeight : Float
  pixels? : RelativeUnit → Option Float

namespace Scale

/-- A scale that knows the percentages only. -/
def ofPercents (width height : Float) : Scale :=
  ⟨width, height, fun _ => none⟩

/-- The scale with one unit given its size, whether it had one before or not. -/
def set (scale : Scale) (unit : RelativeUnit) (pixels : Float) : Scale :=
  { scale with pixels? := fun other => if other = unit then some pixels else scale.pixels? other }

/-- One percent along an axis. -/
def percent (scale : Scale) : Axis → Float
  | .horizontal => scale.percentOfWidth
  | .vertical => scale.percentOfHeight

/-- How many pixels one of what the suffix names is. -/
def ratio (scale : Scale) (axis : Axis) : Suffix → Except LengthFault Float
  | .pixel => .ok 1
  | .percent => .ok (scale.percent axis)
  | .physical unit => .ok unit.pixels
  | .relative unit =>
    match scale.pixels? unit with
    | some pixels => .ok pixels
    | none => .error (.unresolved unit)

/-- Two scales are the same when they size the same units with equal numbers. A NaN equals nothing,
and the two zeros are equal. -/
def same (a b : Scale) : Bool :=
  a.percentOfWidth == b.percentOfWidth && a.percentOfHeight == b.percentOfHeight &&
    RelativeUnit.all.all fun unit => a.pixels? unit == b.pixels? unit

instance : BEq Scale := ⟨same⟩

@[simp] theorem set_pixels?_self (scale : Scale) (unit : RelativeUnit) (pixels : Float) :
    (scale.set unit pixels).pixels? unit = some pixels := by
  simp [set]

@[simp] theorem set_pixels?_of_ne (scale : Scale) {unit other : RelativeUnit}
    (different : other ≠ unit) (pixels : Float) :
    (scale.set unit pixels).pixels? other = scale.pixels? other := by
  simp [set, different]

@[simp] theorem percent_set (scale : Scale) (unit : RelativeUnit) (pixels : Float) (axis : Axis) :
    (scale.set unit pixels).percent axis = scale.percent axis := by
  cases axis <;> rfl

end Scale

end CalcLength
