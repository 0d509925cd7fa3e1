import CalcLength.Declarations.Update
import CalcLength.Json.Basic
import CalcLength.Probe

namespace CalcLength

def Axis.toJson (axis : Axis) : Json :=
  .string axis.name

def Axis.ofJson? (json : Json) : Option Axis :=
  json.choice?.bind ofName?

def RelativeUnit.toJson (unit : RelativeUnit) : Json :=
  .string unit.name

def RelativeUnit.ofJson? (json : Json) : Option RelativeUnit :=
  json.choice?.bind ofName?

def PhysicalUnit.toJson (unit : PhysicalUnit) : Json :=
  .string unit.name

def PhysicalUnit.ofJson? (json : Json) : Option PhysicalUnit :=
  json.choice?.bind ofName?

namespace Scale

def widthKey : String := "h%"

def heightKey : String := "v%"

/-- A scale as an object: the sizes of the units it knows under their
names, and those of one percent. -/
def toJson (scale : Scale) : Json :=
  .object <|
    RelativeUnit.all.filterMap
      (fun unit => (scale.pixels? unit).map fun x => (unit.name, Json.ofFloat x)) ++
      [(widthKey, Json.ofFloat scale.percentOfWidth),
        (heightKey, Json.ofFloat scale.percentOfHeight)]

/-- Takes in one field of a scale's object, whose name must be that of a percentage or a unit. -/
def takeField? (scale : Scale) (field : String × Json) : Option Scale := do
  let x ← field.2.number?
  if field.1 = widthKey then return { scale with percentOfWidth := x }
  if field.1 = heightKey then return { scale with percentOfHeight := x }
  let unit ← RelativeUnit.ofName? field.1
  return scale.set unit x

/-- Reads a scale from an object that has both percentages and, otherwise, units only,
each once and with a number. -/
def ofJson? : Json → Option Scale
  | .object fields =>
    let names := fields.map Prod.fst
    if names.Nodup ∧ widthKey ∈ names ∧ heightKey ∈ names then
      fields.foldlM takeField? (ofPercents 0 0)
    else none
  | _ => none

end Scale

/-- Reads a field of an object, which may be left out but not be null. -/
def Json.fieldOr? {α : Type} (read? : Json → Option α) (ordinary : α)
    (fields : List (String × Json)) (name : String) : Option α :=
  match fields.lookup name with
  | some value => read? value
  | none => some ordinary

def ProbeSettings.toJson (settings : ProbeSettings) : Json :=
  .object [("calibration", Json.ofFloat settings.calibration), ("local_name", .string settings.tag)]

/-- Reads settings from an object of the fields, any of which may be left out, or from an array of
their values in order, which may be cut short. -/
def ProbeSettings.ofJson? : Json → Option ProbeSettings
  | .object fields => do
    let calibration ← Json.fieldOr? Json.number? ordinaryCalibration fields "calibration"
    let tag ← Json.fieldOr? Json.string? ordinaryTag fields "local_name"
    return ⟨calibration, tag⟩
  | .array [] => some {}
  | .array [calibration] => calibration.number?.map fun calibration => { calibration }
  | .array [calibration, tag] => do return ⟨← calibration.number?, ← tag.string?⟩
  | _ => none

namespace Update

/-- Whether the given declarations are changed. -/
def mutates : Update → Bool
  | inPlace => true
  | copy => false

def ofMutates (mutates : Bool) : Update :=
  if mutates then inPlace else copy

def toJson (update : Update) : Json :=
  .object [("mutate", .bool update.mutates)]

/-- Reads the kind of update from an object or an array of its one field, which may be left out. -/
def ofJson? : Json → Option Update
  | .object fields => (Json.fieldOr? Json.bool? false fields "mutate").map ofMutates
  | .array [] => some copy
  | .array [mutates] => mutates.bool?.map ofMutates
  | _ => none

end Update

end CalcLength
