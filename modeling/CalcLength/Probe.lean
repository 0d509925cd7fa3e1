import CalcLength.Number
import CalcLength.Unit

namespace CalcLength

/-- How a probe is laid out: over all of the container, filling its
parent, or so many units wide. -/
inductive ProbeShape
  | cover
  | fill
  | wide (amount : Float) (unit : RelativeUnit)
deriving DecidableEq

/-- The style that gives an element the shape. -/
def ProbeShape.css : ProbeShape → String
  | .cover =>
    "display:block;visibility:hidden;position:absolute;top:0;left:0;width:100%;height:100%"
  | .fill => "width:100%;height:100%"
  | .wide amount unit => "width:" ++ Number.text amount ++ unit.name

/-- Engines report whole pixels, so a hundred units wide keeps two decimals of one. -/
def ordinaryCalibration : Float := 100

/-- A name that no style sheet selects. -/
def ordinaryTag : String := "calc-units-probe"

/-- How a container is measured: the probe of each unit is `calibration` units wide, and all probes
stand in an element named `tag`. -/
structure ProbeSettings where
  calibration : Float := ordinaryCalibration
  tag : String := ordinaryTag
deriving DecidableEq

/-- A calibration that is not positive would measure nothing, so it is not used. -/
def ProbeSettings.isUsable (settings : ProbeSettings) : Bool :=
  0 < settings.calibration

/-- The calibration that measures, the given one or the ordinary one. -/
def ProbeSettings.usedCalibration (settings : ProbeSettings) : Float :=
  if settings.isUsable then settings.calibration else ordinaryCalibration

end CalcLength
