import CalcLength.Formula.Basic

namespace CalcLength.Formula

/-- How many parentheses and signs may enclose an operand. -/
def maxNesting : Nat := 128

/-- A reader of an expression at the head of a list of tokens, which
answers with the tokens it leaves. -/
abbrev Reader := List Token → Except SyntaxFault (Formula × List Token)

/-- Goes on from a left operand for as long as an accepted operator follows, grouping to the left,
but for no more rounds than `bound` has tokens. Every round takes a token, so the tokens
themselves are bound enough. -/
def continueChain (accepts : Operator → Bool) (operand : Reader) : List Token → Formula → Reader
  | _ :: bound, left, .operator op :: rest =>
    if accepts op then
      match operand rest with
      | .ok (right, rest) => continueChain accepts operand bound (binary op left right) rest
      | .error fault => .error fault
    else .ok (left, .operator op :: rest)
  | _, left, tokens => .ok (left, tokens)

/-- Operands joined by accepted operators. -/
def chain (accepts : Operator → Bool) (operand : Reader) : Reader := fun tokens =>
  match operand tokens with
  | .ok (left, rest) => continueChain accepts operand rest left rest
  | .error fault => .error fault

/-- Products and quotients bind tighter than sums and differences. -/
def sum (operand : Reader) : Reader :=
  chain isTermOperator (chain isFactorOperator operand)

/-- What stands between parentheses, the opening one taken already. -/
def group (inner : Reader) : Reader := fun tokens =>
  match inner tokens with
  | .ok (formula, .closing :: rest) => .ok (formula, rest)
  | .ok (_, []) => .error .unexpectedEnd
  | .ok (_, _ :: _) => .error .unexpectedToken
  | .error fault => .error fault

/-- A number, a signed operand or a group, enclosed by at most `nesting` more signs and parentheses.
A sign or parenthesis too many is refused before what follows it is looked at. -/
def operand : Nat → Reader
  | _, .number x :: rest => .ok (number x, rest)
  | nesting, .operator op :: rest =>
    match signed op, nesting with
    | none, _ => .error .unexpectedToken
    | some _, 0 => .error .nestedTooDeeply
    | some sign, nesting + 1 =>
      match operand nesting rest with
      | .ok (formula, rest) => .ok (sign formula, rest)
      | .error fault => .error fault
  | 0, .opening :: _ => .error .nestedTooDeeply
  | nesting + 1, .opening :: rest => group (sum (operand nesting)) rest
  | _, .closing :: _ => .error .unexpectedToken
  | _, [] => .error .unexpectedEnd

/-- The expression that all tokens together make. -/
def parse (tokens : List Token) : Except SyntaxFault Formula :=
  match sum (operand maxNesting) tokens with
  | .ok (formula, []) => .ok formula
  | .ok (_, _ :: _) => .error .unexpectedToken
  | .error fault => .error fault

/-- The expression that a text spells. A fault in its characters goes before one
in the order of its tokens. -/
def read (cs : List Char) : Except SyntaxFault Formula :=
  match Token.scan cs with
  | .ok tokens => parse tokens
  | .error fault => .error fault

/-- What a text comes to, infinity and NaN included. -/
def compute (text : String) : Except SyntaxFault Float :=
  (read text.toList).map value

end CalcLength.Formula
