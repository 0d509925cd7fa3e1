import CalcLength.Calc
import CalcLength.Declarations.Basic

namespace CalcLength

/-- The properties whose percentages are measured along the vertical axis. -/
def heightProperties : List String :=
  ["top", "bottom", "height", "min-height", "minHeight", "max-height", "maxHeight"]

def isHeightProperty (name : String) : Bool :=
  heightProperties.contains name

/-- The axis along which a property's percentages are measured. -/
def Axis.ofProperty (name : String) : Axis :=
  if isHeightProperty name then .vertical else .horizontal

/-- Whether a value is one to evaluate. -/
def isCalculation (value : String) : Bool :=
  ['c', 'a', 'l', 'c', '('].isPrefixOf value.toList

namespace Declarations

/-- The declarations whose values are ones to evaluate. -/
def calculations (declarations : Declarations) : List (String × String) :=
  declarations.entries.filter fun entry => isCalculation entry.2

/-- A declaration with its value evaluated along the property's axis. -/
def evaluateEntry (scale : Scale) (entry : String × String) :
    Except LengthFault (String × String) :=
  (Calc.evaluate scale (Axis.ofProperty entry.1) entry.2).map (entry.1, ·)

/-- The declarations with all values evaluated. The fault is that of the first value that has one,
and only when none has one are the new values inserted. -/
def evaluate (scale : Scale) (declarations : Declarations) : Except LengthFault Declarations :=
  (declarations.calculations.mapM (evaluateEntry scale)).map declarations.insertAll

/-- Whether any value is one to evaluate. -/
def hasCalculation (declarations : Declarations) : Bool :=
  declarations.entries.any fun entry => isCalculation entry.2

end Declarations

/-- Whether declarations are updated where they are or in a copy. -/
inductive Update
  | inPlace
  | copy
deriving DecidableEq, Repr

/-- What an update answers with: the given declarations themselves, or a copy. -/
inductive Updated
  | given
  | copy (declarations : Declarations)

/-- The answer of an update and the given declarations after it. -/
def Update.finish (update : Update) (given evaluated : Declarations) : Updated × Declarations :=
  match update with
  | .inPlace => (.given, evaluated)
  | .copy => (.copy evaluated, given)

/-- Evaluates all values or, if one has a fault, changes nothing. -/
def Update.apply (update : Update) (scale : Scale) (given : Declarations) :
    Except LengthFault Updated × Declarations :=
  match given.evaluate scale with
  | .ok evaluated =>
    let (answer, after) := update.finish given evaluated
    (.ok answer, after)
  | .error fault => (.error fault, given)

/-- The declarations that an update answers with, given those it left behind. -/
def Updated.declarations (after : Declarations) : Updated → Declarations
  | .given => after
  | .copy declarations => declarations

end CalcLength
