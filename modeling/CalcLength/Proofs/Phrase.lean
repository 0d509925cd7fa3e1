import CalcLength.Formula.Parser

namespace CalcLength

/-- A word of an expression, with operands of any kind. -/
inductive Lexeme (α : Type)
  | operator (op : Operator)
  | opening
  | closing
  | operand (value : α)

def Lexeme.token : Lexeme Float → Token
  | operator op => .operator op
  | opening => .opening
  | closing => .closing
  | operand x => .number x

/-- The two kinds of chains of operands. -/
inductive Level
  | sum
  | product
deriving DecidableEq

/-- What the grammar tells apart. -/
inductive Rank
  | chain (level : Level)
  | unary
  | primary
deriving DecidableEq

/-- The operators that join the operands of a chain. -/
def Level.accepts : Level → Operator → Bool
  | sum => Formula.isTermOperator
  | product => Formula.isFactorOperator

/-- A sum is a chain of products, a product is a chain of signed operands. -/
def Level.operand : Level → Rank
  | sum => .chain .product
  | product => .unary

/-- A derivation in the grammar `Sum ::= Product ((+|-) Product)*`,
`Product ::= Unary ((*|/) Unary)*`, `Unary ::= (+|-) Unary | Primary`,
`Primary ::= Operand | ( Sum )`. Chains are grouped to the left: each is a single operand, or a
chain joined with one operand more. -/
inductive Phrase (α : Type) : Rank → Type
  | single {level : Level} (only : Phrase α level.operand) : Phrase α (.chain level)
  | join {level : Level} (left : Phrase α (.chain level)) (op : Operator)
      (accepted : level.accepts op = true)
      (right : Phrase α level.operand) : Phrase α (.chain level)
  | signed (op : Operator) (accepted : Formula.isTermOperator op = true)
      (inner : Phrase α .unary) : Phrase α .unary
  | unsigned (inner : Phrase α .primary) : Phrase α .unary
  | operand (value : α) : Phrase α .primary
  | group (inner : Phrase α (.chain .sum)) : Phrase α .primary

/-- A derivation from the start symbol. -/
abbrev Sentence (α : Type) := Phrase α (.chain .sum)

namespace Phrase

variable {α : Type} {r : Rank}

/-- The words derived, from left to right. -/
def words {r : Rank} : Phrase α r → List (Lexeme α)
  | single only => only.words
  | join left op _ right => left.words ++ .operator op :: right.words
  | signed op _ inner => .operator op :: inner.words
  | unsigned inner => inner.words
  | operand value => [.operand value]
  | group inner => .opening :: inner.words ++ [.closing]

def operands {r : Rank} : Phrase α r → List α
  | single only => only.operands
  | join left _ _ right => left.operands ++ right.operands
  | signed _ _ inner => inner.operands
  | unsigned inner => inner.operands
  | operand value => [value]
  | group inner => inner.operands

/-- How many groups and signs enclose an operand, taken at the operand where that is most. An
operand may bring signs of its own, as many as `own` says. -/
def nesting (own : α → Nat) {r : Rank} : Phrase α r → Nat
  | single only => only.nesting own
  | join left _ _ right => max (left.nesting own) (right.nesting own)
  | signed _ _ inner => inner.nesting own + 1
  | unsigned inner => inner.nesting own
  | operand value => own value
  | group inner => inner.nesting own + 1

/-- The tree of the derivation: plus signs and parentheses leave no trace, a minus sign negates. -/
def formula (number : α → Float) {r : Rank} : Phrase α r → Formula
  | single only => only.formula number
  | join left op _ right => .binary op (left.formula number) (right.formula number)
  | signed op _ inner =>
    if op = .subtract then .negate (inner.formula number) else inner.formula number
  | unsigned inner => inner.formula number
  | operand value => .number (number value)
  | group inner => inner.formula number

/-- The tokens of a derivation over numbers. -/
def tokens (p : Phrase Float r) : List Token :=
  p.words.map Lexeme.token

/-- The nesting of a derivation whose operands are numbers, which bring no signs. -/
def depth (p : Phrase Float r) : Nat :=
  p.nesting fun _ => 0

def tree (p : Phrase Float r) : Formula :=
  p.formula id

theorem words_ne_nil (p : Phrase α r) : p.words ≠ [] := by
  induction p with
  | single only ih => exact ih
  | join => simp [words]
  | signed => simp [words]
  | unsigned inner ih => exact ih
  | operand => simp [words]
  | group => simp [words]

theorem mem_operands {a : α} (p : Phrase α r) : a ∈ p.operands ↔ .operand a ∈ p.words := by
  induction p with
  | single only ih => exact ih
  | join left op accepted right ihLeft ihRight => simp [operands, words, ihLeft, ihRight]
  | signed op accepted inner ih => simp [operands, words, ih]
  | unsigned inner ih => exact ih
  | operand => simp [operands, words]
  | group inner ih => simp [operands, words, ih]

end Phrase

end CalcLength
