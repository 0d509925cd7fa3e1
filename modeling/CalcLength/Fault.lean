import CalcLength.Unit

namespace CalcLength

/-- Why a text is no arithmetic expression. -/
inductive SyntaxFault
  | illegalCharacter
  | invalidNumeral
  | unexpectedToken
  | unexpectedEnd
  | nestedTooDeeply
deriving DecidableEq, Repr

def SyntaxFault.message : SyntaxFault → String
  | .illegalCharacter => "illegal character"
  | .invalidNumeral => "invalid numeric literal"
  | .unexpectedToken => "unexpected token"
  | .unexpectedEnd => "unexpected end of input"
  | .nestedTooDeeply => "parentheses nested too deeply"

/-- Why an expression is no length. -/
inductive LengthFault
  | malformed (fault : SyntaxFault)
  | unresolved (unit : RelativeUnit)
  | notFinite
deriving DecidableEq, Repr

def LengthFault.message : LengthFault → String
  | .malformed fault => "Invalid calc expression: " ++ fault.message
  | .unresolved unit => "No resolved length for unit `" ++ unit.name ++ "`"
  | .notFinite => "Calc expression did not reduce to a finite length"

end CalcLength
