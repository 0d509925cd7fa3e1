import CalcLength.Calc
import CalcLength.Proofs.Phrase
import CalcLength.Proofs.Splitting

namespace CalcLength

/-- An operand of an expression with lengths: a number, or a number with
a suffix directly behind it. -/
inductive Leaf
  | literal (l : Literal)
  | length (l : Literal) (suffix : Suffix)

namespace Leaf

def text : Leaf → List Char
  | literal l => l.text
  | length l suffix => l.text ++ suffix.letters

/-- Whether the number of a length is one that a length may have: `digits [. digits]` or
`. digits`, perhaps with a power. -/
def Proper : Leaf → Prop
  | literal _ => True
  | length l _ => l.Proper

/-- What the leaf comes to: a length is its number times what its suffix names. -/
def pixels (scale : Scale) (axis : Axis) : Leaf → Except LengthFault Float
  | literal l => .ok l.value
  | length l suffix => (scale.ratio axis suffix).map (l.value * ·)

/-- What the leaf comes to, or zero where it comes to nothing. -/
def value (scale : Scale) (axis : Axis) (leaf : Leaf) : Float :=
  match leaf.pixels scale axis with
  | .ok x => x
  | .error _ => 0

def IsLength : Leaf → Prop
  | literal _ => False
  | length _ _ => True

theorem value_eq {scale : Scale} {axis : Axis} {leaf : Leaf} {x : Float}
    (pixels : leaf.pixels scale axis = .ok x) : leaf.value scale axis = x := by
  rw [value, pixels]

end Leaf

namespace Lexeme

def text : Lexeme Leaf → List Char
  | operator op => [op.symbol]
  | opening => ['(']
  | closing => [')']
  | operand leaf => leaf.text

def IsOperand {α : Type} : Lexeme α → Prop
  | operand _ => True
  | _ => False

end Lexeme

/-- A text that spells words one behind the other, with blanks anywhere around them. -/
inductive Spells : List Char → List (Lexeme Leaf) → Prop
  | nil : Spells [] []
  | blank {c : Char} {cs : List Char} {words : List (Lexeme Leaf)} (isBlank : Text.isBlank c = true)
      (spells : Spells cs words) : Spells (c :: cs) words
  | word {cs : List Char} {words : List (Lexeme Leaf)} (word : Lexeme Leaf)
      (spells : Spells cs words) :
      Spells (word.text ++ cs) (word :: words)

/-- A text taken apart from left to right, always with the longest word that there is. -/
inductive Lexes : List Char → List (Lexeme Leaf) → Prop
  | nil : Lexes [] []
  | blank {c : Char} {cs : List Char} {words : List (Lexeme Leaf)} (isBlank : Text.isBlank c = true)
      (lexes : Lexes cs words) : Lexes (c :: cs) words
  | word {cs : List Char} {words : List (Lexeme Leaf)} (word : Lexeme Leaf)
      (longest : ∀ other : Lexeme Leaf, other.text <+: word.text ++ cs →
        other.text.length ≤ word.text.length)
      (lexes : Lexes cs words) : Lexes (word.text ++ cs) (word :: words)

theorem Lexes.spells {cs : List Char} {words : List (Lexeme Leaf)} (lexes : Lexes cs words) :
    Spells cs words := by
  induction lexes with
  | nil => exact .nil
  | blank isBlank _ ih => exact ih.blank isBlank
  | word word _ _ ih => exact ih.word word

theorem Leaf.exists_eq_cons (leaf : Leaf) :
    ∃ c more, leaf.text = c :: more ∧ (c.isDigit = true ∨ c = '.') := by
  have number (l : Literal) (rest : List Char) : ∃ c more, l.text ++ rest = c :: more ∧
      (c.isDigit = true ∨ c = '.') := by
    cases text : l.text with
    | nil => exact absurd text l.numberShape.ne_nil
    | cons c more => exact ⟨c, more ++ rest, rfl, l.numberShape.head? (by rw [text]; rfl)⟩
  cases leaf with
  | literal l => rw [text, ← List.append_nil l.text]; exact number l []
  | length l suffix => exact number l _

theorem Lexeme.exists_eq_cons (word : Lexeme Leaf) : ∃ c more, word.text = c :: more ∧
    (¬word.IsOperand → more = [] ∧ (Token.ofChar? c).isSome = true) ∧
      (word.IsOperand → c.isDigit = true ∨ c = '.') := by
  cases word with
  | operator op =>
    exact ⟨op.symbol, [], rfl, fun _ => ⟨rfl, by rw [Token.ofChar?_symbol]; rfl⟩, False.elim⟩
  | opening => exact ⟨'(', [], rfl, fun _ => ⟨rfl, rfl⟩, False.elim⟩
  | closing => exact ⟨')', [], rfl, fun _ => ⟨rfl, rfl⟩, False.elim⟩
  | operand leaf =>
    obtain ⟨c, more, text, begins⟩ := leaf.exists_eq_cons
    exact ⟨c, more, text, fun other => absurd trivial other, fun _ => begins⟩

theorem Lexeme.text_ne_nil (word : Lexeme Leaf) : word.text ≠ [] := by
  obtain ⟨c, more, text, _⟩ := word.exists_eq_cons
  rw [text]
  exact List.cons_ne_nil _ _

/-- Where no operand comes next, a spelled text begins with a delimiter. -/
theorem Spells.delimited {cs : List Char} {words : List (Lexeme Leaf)} (spells : Spells cs words)
    (no_operand : ∀ word, words.head? = some word → ¬word.IsOperand) : Delimited cs := by
  cases spells with
  | nil => exact delimited_nil
  | blank isBlank => exact delimited_cons.mpr (.inl isBlank)
  | word word spells =>
    obtain ⟨c, more, text, other, _⟩ := word.exists_eq_cons
    rw [text]
    exact delimited_cons.mpr (.inr (other (no_operand word rfl)).2)

theorem Lexeme.length_text_pos (word : Lexeme Leaf) : 0 < word.text.length :=
  List.length_pos_iff.mpr word.text_ne_nil

/-- A word that is no operand is all that its character begins. -/
theorem Lexeme.longest_of_not_isOperand {word other : Lexeme Leaf} (no_operand : ¬word.IsOperand)
    {rest : List Char} (begins : other.text <+: word.text ++ rest) :
    other.text.length ≤ word.text.length := by
  obtain ⟨c, more, text, single, _⟩ := word.exists_eq_cons
  obtain ⟨d, more', text', single', isOperand⟩ := other.exists_eq_cons
  obtain ⟨rfl, token⟩ := single no_operand
  rw [text, text'] at begins ⊢
  obtain ⟨rfl, _⟩ := List.cons_prefix_cons.mp begins
  by_cases operand : other.IsOperand
  · have apart := Delimits.not_in_number (.inr token)
    rcases isOperand operand with digit | point
    · rw [not_isDigit_of_not_isDecimalDigit apart.1] at digit
      cases digit
    · exact absurd point apart.2.1
  · exact Nat.le_of_eq (by rw [(single' operand).1])

/-- A literal is the longest word where it stands if it is the longest
literal and no suffix follows it. -/
theorem Literal.longest_word {l : Literal} {rest : List Char} (ends : l.Ends rest)
    (no_suffix : ∀ suffix : Suffix, ¬suffix.letters <+: rest) {other : Lexeme Leaf}
    (begins : other.text <+: l.text ++ rest) : other.text.length ≤ l.text.length := by
  have some_text : 0 < l.text.length := List.length_pos_iff.mpr l.numberShape.ne_nil
  cases other with
  | operator => exact some_text
  | opening => exact some_text
  | closing => exact some_text
  | operand leaf =>
    cases leaf with
    | literal l' => exact Literal.longest ends begins
    | length l' suffix =>
      have number : l'.text <+: l.text ++ rest := (List.prefix_append _ _).trans begins
      obtain ⟨tail, here⟩ := List.prefix_of_prefix_length_le number (List.prefix_append _ _)
        (Literal.longest ends number)
      rw [Lexeme.text, Leaf.text, ← here, List.append_assoc, List.prefix_append_right_inj] at begins
      cases tail with
      | nil => exact absurd begins (no_suffix suffix)
      | cons c tail =>
        exact absurd begins (l.no_suffix_inside here.symm (List.cons_ne_nil _ _) suffix)

/-- A length is the longest word where it stands. -/
theorem Leaf.longest_length (l : Literal) (suffix : Suffix) {rest : List Char} {other : Lexeme Leaf}
    (begins : other.text <+: (length l suffix).text ++ rest) :
    other.text.length ≤ (length l suffix).text.length := by
  rw [text, List.append_assoc] at begins
  have longest {l' : Literal} (begins : l'.text <+: l.text ++ (suffix.letters ++ rest)) :
      l'.text.length ≤ l.text.length :=
    Literal.longest (suffix.ends rest l) begins
  have some_text : 0 < (length l suffix).text.length :=
    (Lexeme.operand (length l suffix)).length_text_pos
  cases other with
  | operator => exact some_text
  | opening => exact some_text
  | closing => exact some_text
  | operand leaf =>
    cases leaf with
    | literal l' =>
      rw [text, List.length_append]
      exact Nat.le_add_right_of_le (longest begins)
    | length l' suffix' =>
      have number : l'.text <+: l.text ++ (suffix.letters ++ rest) :=
        (List.prefix_append _ _).trans begins
      obtain ⟨tail, here⟩ :=
        List.prefix_of_prefix_length_le number (List.prefix_append _ _) (longest number)
      rw [Lexeme.text, text, ← here, List.append_assoc, List.prefix_append_right_inj] at begins
      cases tail with
      | nil =>
        rw [List.append_nil] at here
        refine Nat.le_of_eq ?_
        rw [Lexeme.text, text, text, here, Suffix.eq_of_isPrefix begins (List.prefix_append _ _)]
      | cons c tail =>
        exact absurd begins (l.no_suffix_inside here.symm (List.cons_ne_nil _ _) suffix')

end CalcLength
