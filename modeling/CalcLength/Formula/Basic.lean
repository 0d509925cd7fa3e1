import CalcLength.Formula.Token

namespace CalcLength

/-- An arithmetic expression. Parentheses and plus signs leave no trace in it. -/
inductive Formula
  | number (value : Float)
  | negate (operand : Formula)
  | binary (op : Operator) (left right : Formula)
deriving DecidableEq

namespace Formula

def value : Formula → Float
  | number x => x
  | negate operand => -operand.value
  | binary op left right => op.apply left.value right.value

/-- The signs that may stand before an operand. -/
def signed : Operator → Option (Formula → Formula)
  | .add => some id
  | .subtract => some negate
  | _ => none

def isTermOperator : Operator → Bool
  | .add => true
  | .subtract => true
  | _ => false

def isFactorOperator : Operator → Bool
  | .multiply => true
  | .divide => true
  | _ => false

end Formula

end CalcLength
