import CalcLength.Formula.Parser
import CalcLength.Number
import CalcLength.Piece
import CalcLength.Scale

namespace CalcLength.Calc

/-- Characters that would grow together with a number beside them. -/
def joins (c : Char) : Bool :=
  c.isAlphanum || c = '.'

/-- A length must stand apart from the characters around it. -/
def standsApart (before after : Option Char) : Bool :=
  !before.any joins && !after.any joins

/-- How many pixels a length is. -/
def lengthPixels (scale : Scale) (axis : Axis) (number : List Char) (suffix : Suffix) :
    Except LengthFault Float :=
  match Numeral.read? number with
  | none => .error (.malformed .invalidNumeral)
  | some x =>
    match scale.ratio axis suffix with
    | .ok ratio => .ok (x * ratio)
    | .error fault => .error fault

/-- Writes each length as its number of pixels and keeps all other characters. `before` is the
character before the first piece. The fault is that of the first length that has one. -/
def inPixels (scale : Scale) (axis : Axis) :
    Option Char → List Piece → Except LengthFault (List Char)
  | _, [] => .ok []
  | _, .plain c :: rest => (inPixels scale axis (some c) rest).map (c :: ·)
  | before, .length number suffix :: rest =>
    if standsApart before (Piece.first? rest) then
      match lengthPixels scale axis number suffix with
      | .ok pixels =>
        (inPixels scale axis suffix.letters.getLast? rest).map (Number.write pixels ++ ·)
      | .error fault => .error fault
    else .error (.malformed .unexpectedToken)

/-- The expression with the white space around it and the word before it taken off. -/
def body (cs : List Char) : List Char :=
  Text.dropFirst ['c', 'a', 'l', 'c'] (Text.trim cs)

/-- What an expression without the word before it comes to, infinity and NaN included. -/
def value (scale : Scale) (axis : Axis) (cs : List Char) : Except LengthFault Float :=
  match inPixels scale axis none (Piece.split cs) with
  | .ok plain => ((Formula.read plain).map Formula.value).mapError .malformed
  | .error fault => .error fault

/-- The number of pixels that an expression comes to. -/
def pixels (scale : Scale) (axis : Axis) (cs : List Char) : Except LengthFault Float :=
  match value scale axis (body cs) with
  | .ok x => if x.isFinite then .ok x else .error .notFinite
  | .error fault => .error fault

/-- A number of pixels as a length. -/
def writePixels (x : Float) : String :=
  String.ofList (Number.write x ++ ['p', 'x'])

/-- The length that an expression comes to. -/
def evaluate (scale : Scale) (axis : Axis) (text : String) : Except LengthFault String :=
  (pixels scale axis text.toList).map writePixels

end CalcLength.Calc
