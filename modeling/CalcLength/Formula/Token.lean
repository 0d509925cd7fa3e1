import CalcLength.Fault
import CalcLength.Numeral
import CalcLength.Text.Blank

namespace CalcLength

inductive Operator
  | add
  | subtract
  | multiply
  | divide
deriving DecidableEq, Repr

def Operator.symbol : Operator → Char
  | .add => '+'
  | .subtract => '-'
  | .multiply => '*'
  | .divide => '/'

def Operator.apply : Operator → Float → Float → Float
  | .add => (· + ·)
  | .subtract => (· - ·)
  | .multiply => (· * ·)
  | .divide => (· / ·)

inductive Token
  | operator (op : Operator)
  | opening
  | closing
  | number (value : Float)
deriving DecidableEq

namespace Token

/-- The tokens of one character. -/
def ofChar? : Char → Option Token
  | '+' => some (.operator .add)
  | '-' => some (.operator .subtract)
  | '*' => some (.operator .multiply)
  | '/' => some (.operator .divide)
  | '(' => some .opening
  | ')' => some .closing
  | _ => none

/-- The tokens of a text, from left to right, each as long as it can be. A point without a digit
beside it is a numeral gone wrong; any other character at which no token starts is out of place. -/
def scan (cs : List Char) : Except SyntaxFault (List Token) :=
  match cs with
  | [] => .ok []
  | c :: rest =>
    if Text.isBlank c then scan rest
    else
      match ofChar? c with
      | some token => (scan rest).map (token :: ·)
      | none =>
        match _ : Numeral.scan? (c :: rest) with
        | some (numeral, after) => (scan after).map (.number numeral.value :: ·)
        | none => .error (if c = '.' then .invalidNumeral else .illegalCharacter)
termination_by cs.length
decreasing_by
  · exact Nat.lt_succ_self _
  · exact Nat.lt_succ_self _
  · exact Numeral.scan?_length_lt ‹_›

theorem ofChar?_symbol (op : Operator) : ofChar? op.symbol = some (.operator op) := by
  cases op <;> rfl

theorem eq_of_ofChar? {c : Char} {token : Token} (here : ofChar? c = some token) :
    (∃ op, c = op.symbol ∧ token = .operator op) ∨ c = '(' ∧ token = .opening ∨
      c = ')' ∧ token = .closing := by
  unfold ofChar? at here
  split at here
  · cases here; exact .inl ⟨.add, rfl, rfl⟩
  · cases here; exact .inl ⟨.subtract, rfl, rfl⟩
  · cases here; exact .inl ⟨.multiply, rfl, rfl⟩
  · cases here; exact .inl ⟨.divide, rfl, rfl⟩
  · cases here; exact .inr (.inl ⟨rfl, rfl⟩)
  · cases here; exact .inr (.inr ⟨rfl, rfl⟩)
  · cases here

end Token

end CalcLength
