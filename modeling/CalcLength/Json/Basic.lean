namespace CalcLength

/-- A JSON value. The fields of an object keep their order, and no name is expected twice. -/
inductive Json
  | null
  | bool (value : Bool)
  | number (value : Float)
  | string (text : String)
  | array (items : List Json)
  | object (fields : List (String × Json))

namespace Json

/-- JSON has no infinities and no NaN; they become null. -/
def ofFloat (x : Float) : Json :=
  if x.isFinite then number x else null

def number? : Json → Option Float
  | number x => some x
  | _ => none

def string? : Json → Option String
  | string text => some text
  | _ => none

def bool? : Json → Option Bool
  | bool value => some value
  | _ => none

/-- A choice among names, written as the name or as an object of that
one name with null beside it. -/
def choice? : Json → Option String
  | string name => some name
  | object [(name, null)] => some name
  | _ => none

end Json

end CalcLength
