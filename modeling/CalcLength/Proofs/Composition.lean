import CalcLength.Proofs.Completeness
import CalcLength.Proofs.Nesting
import CalcLength.Proofs.Separator
import CalcLength.Proofs.Soundness
import CalcLength.Proofs.Unambiguity

namespace CalcLength

namespace Token

/-- A text that is scanned is scanned alike before a delimiter: no token goes on over it. -/
theorem scan_append {cs rest : List Char} {tokens : List Token} (scanned : scan cs = .ok tokens)
    (delimited : Delimited rest) : scan (cs ++ rest) = (scan rest).map (tokens ++ ·) := by
  have nothing (outcome : Except SyntaxFault (List Token)) : outcome.map ([] ++ ·) = outcome := by
    cases outcome <;> rfl
  have after (first more : List Token) (outcome : Except SyntaxFault (List Token)) :
      (outcome.map (more ++ ·)).map (first ++ ·) = outcome.map (first ++ more ++ ·) := by
    cases outcome with
    | error fault => rfl
    | ok tokens => exact congrArg Except.ok (List.append_assoc ..).symm
  -- The scan takes a token at a time, a numeral of any length, so the induction is on how much text
  -- is left.
  generalize size : cs.length = n
  induction n using Nat.strong_induction_on generalizing cs tokens with
  | _ n ih =>
    subst size
    cases cs with
    | nil =>
      rw [scan_nil] at scanned
      cases scanned
      exact (nothing _).symm
    | cons c cs =>
      rcases scan_cons_eq_ok scanned with ⟨blank, goes_on⟩ | ⟨token, more, here, goes_on, rfl⟩ |
        ⟨_, l, behind, more, text, ends, goes_on, rfl⟩
      · rw [List.cons_append, scan_blank blank]
        exact ih cs.length (Nat.lt_succ_self _) goes_on rfl
      · rw [List.cons_append, scan_ofChar here, ih cs.length (Nat.lt_succ_self _) goes_on rfl]
        exact after [token] more _
      · -- A numeral at the very end is ended by the delimiter, any other by what already ended it.
        have ends : l.Ends (behind ++ rest) := by
          cases behind with
          | nil => exact delimited.ends l
          | cons d behind =>
            refine ⟨fun e first => ends.digit e first,
              fun no_fraction no_power => ends.point no_fraction no_power, fun _ => ?_⟩
            refine Numeral.power?_eq_none fun e first => ?_
            cases first
            exact (delimits_or_beginsNumeral goes_on).elim
              (·.not_in_number.2.2) (·.ends_operand.2.1)
        have shorter : behind.length < (c :: cs).length := by
          have some_text := List.length_pos_iff.mpr l.numberShape.ne_nil
          rw [text, List.length_append]
          omega
        rw [text, List.append_assoc, scan_literal l ends, ih behind.length shorter goes_on rfl]
        exact after [.number l.value] more _

end Token

/-- An operation on two sentences in parentheses, in parentheses itself, is a sentence
nested two deeper than they are. -/
theorem Phrase.exists_combination (op : Operator) (left right : Sentence Float) :
    ∃ s : Sentence Float,
      s.tokens = .opening :: .opening :: (left.tokens ++
        .closing :: .operator op :: .opening :: (right.tokens ++ [.closing, .closing])) ∧
      s.depth = max left.depth right.depth + 2 ∧ s.tree = .binary op left.tree right.tree := by
  let first : Phrase Float .unary := .unsigned (.group left)
  let second : Phrase Float .unary := .unsigned (.group right)
  have deepest : max (left.depth + 1) (right.depth + 1) + 1 =
      max left.depth right.depth + 2 := by omega
  have tokens : (Lexeme.opening :: (first.words ++ Lexeme.operator op :: second.words) ++
        [Lexeme.closing]).map Lexeme.token =
      .opening :: .opening :: (left.tokens ++
        .closing :: .operator op :: .opening :: (right.tokens ++ [.closing, .closing])) := by
    simp [first, second, words, Phrase.tokens, Lexeme.token]
  by_cases term : Formula.isTermOperator op = true
  · let inner : Sentence Float := @join _ .sum (.single (.single first)) op term (.single second)
    exact ⟨.single (.single (.unsigned (.group inner))), tokens, deepest, rfl⟩
  · have factor : Formula.isFactorOperator op = true := by
      cases op <;> first | rfl | exact absurd rfl term
    let inner : Sentence Float := .single (@join _ .product (.single first) op factor second)
    exact ⟨.single (.single (.unsigned (.group inner))), tokens, deepest, rfl⟩

namespace Calc

variable {scale : Scale} {axis : Axis} {a b : List Char} {x y : Float}

/-- Of the character before a text nothing counts but whether it joins. -/
theorem inPixels_before {before before' : Option Char} (same : before.any joins = before'.any joins)
    (pieces : List Piece) :
    inPixels scale axis before pieces = inPixels scale axis before' pieces := by
  cases pieces with
  | nil => rfl
  | cons piece pieces =>
    cases piece with
    | plain c => rfl
    | length number suffix => rw [inPixels, inPixels, standsApart, standsApart, same]

/-- What is replaced is replaced alike before a character that does not join. -/
theorem inPixels_append_plain {before : Option Char} {front : List Piece} {plain : List Char}
    {c : Char} (replaced : inPixels scale axis before front = .ok plain) (apart : joins c = false)
    (back : List Piece) :
    inPixels scale axis before (front ++ .plain c :: back) =
      (inPixels scale axis (some c) back).map (plain ++ c :: ·) := by
  have after (first more : List Char) (outcome : Except LengthFault (List Char)) :
      (outcome.map (more ++ c :: ·)).map (first ++ ·) = outcome.map (first ++ more ++ c :: ·) := by
    cases outcome with
    | error fault => rfl
    | ok tail => exact congrArg Except.ok (List.append_assoc ..).symm
  have standsApart_append (before : Option Char) (front : List Piece) :
      standsApart before (Piece.first? (front ++ .plain c :: back)) =
        standsApart before (Piece.first? front) := by
    cases front with
    | nil =>
      have joined : (Piece.first? (.plain c :: back)).any joins = false := apart
      rw [List.nil_append, standsApart, standsApart, joined]
      rfl
    | cons => rfl
  induction front generalizing before plain with
  | nil =>
    cases replaced
    rfl
  | cons piece front ih =>
    cases piece with
    | plain d =>
      obtain ⟨more, goes_on, rfl⟩ := exists_of_map_eq_ok replaced
      rw [List.cons_append, inPixels, ih goes_on]
      exact after [d] more _
    | length number suffix =>
      rw [inPixels] at replaced
      rw [List.cons_append, inPixels, standsApart_append]
      split at replaced
      · rename_i free
        split at replaced
        · rename_i pixels measured
          obtain ⟨more, goes_on, rfl⟩ := exists_of_map_eq_ok replaced
          rw [if_pos free, ih goes_on]
          exact after _ more _
        · cases replaced
      · cases replaced

/-- Whether an expression, its lengths replaced, is a sentence with so much nesting. -/
def Nests (scale : Scale) (axis : Axis) (cs : List Char) (depth : Nat) : Prop :=
  ∃ plain, ∃ s : Sentence Float,
    inPixels scale axis none (Piece.split cs) = .ok plain ∧
      Token.scan plain = .ok s.tokens ∧ s.depth = depth

/-- How deep an expression is nested that is replaced by a sentence. -/
theorem nests_iff {plain : List Char} {s : Sentence Float}
    (replaced : inPixels scale axis none (Piece.split a) = .ok plain)
    (scanned : Token.scan plain = .ok s.tokens) (depth : Nat) :
    Nests scale axis a depth ↔ depth = s.depth := by
  constructor
  · rintro ⟨plain', s', replaced', scanned', rfl⟩
    cases replaced.symm.trans replaced'
    rw [Phrase.tokens_injective (Except.ok.inj (scanned.symm.trans scanned'))]
  · rintro rfl
    exact ⟨plain, s, replaced, scanned, rfl⟩

theorem body_composed (op : Operator) (a b : List Char) :
    body ("calc((".toList ++ a ++ ')' :: op.symbol :: '(' :: b ++ "))".toList) =
      '(' :: '(' :: (a ++ ')' :: op.symbol :: '(' :: (b ++ [')', ')'])) := by
  have ends : "calc((".toList ++ a ++ ')' :: op.symbol :: '(' :: b ++ "))".toList =
      'c' :: (['a', 'l', 'c', '(', '('] ++
        (a ++ ')' :: op.symbol :: '(' :: (b ++ [')'])) ++ [')']) := by simp
  have starts : 'c' :: (['a', 'l', 'c', '(', '('] ++
        (a ++ ')' :: op.symbol :: '(' :: (b ++ [')'])) ++ [')']) =
      ['c', 'a', 'l', 'c'] ++
        '(' :: '(' :: (a ++ ')' :: op.symbol :: '(' :: (b ++ [')', ')'])) := by simp
  rw [body, ends, Text.trim_cons_concat (by decide) (by decide), starts, Text.dropFirst_append]

/-- The lengths of each part are replaced as they are in the part alone. -/
theorem inPixels_composed (op : Operator) {plainA plainB : List Char}
    (left : inPixels scale axis none (Piece.split a) = .ok plainA)
    (right : inPixels scale axis none (Piece.split b) = .ok plainB) :
    inPixels scale axis none
      (Piece.split ('(' :: '(' :: (a ++ ')' :: op.symbol :: '(' :: (b ++ [')', ')'])))) =
      .ok ('(' :: '(' :: (plainA ++ ')' :: op.symbol :: '(' :: (plainB ++ [')', ')']))) := by
  have opening : Delimits '(' := .inr rfl
  have closing : Separates ')' := by decide
  have symbol : Delimits op.symbol := .inr (by rw [Token.ofChar?_symbol]; rfl)
  have last : Piece.split [')'] = [.plain ')'] := by
    rw [Piece.split_delimiter (.inr rfl), Piece.split]
  have opened (pieces : List Piece) :
      inPixels scale axis (some '(') pieces = inPixels scale axis none pieces :=
    inPixels_before (by rfl) pieces
  rw [Piece.split_delimiter opening, Piece.split_delimiter opening,
    Piece.split_append_separator closing, Piece.split_delimiter symbol,
    Piece.split_delimiter opening, Piece.split_append_separator closing, last,
    inPixels, inPixels, opened, inPixels_append_plain left rfl, inPixels, inPixels, opened,
    inPixels_append_plain right rfl]
  rfl

theorem scan_composed (op : Operator) {plainA plainB : List Char} {s t : Sentence Float}
    (left : Token.scan plainA = .ok s.tokens) (right : Token.scan plainB = .ok t.tokens) :
    Token.scan ('(' :: '(' :: (plainA ++ ')' :: op.symbol :: '(' :: (plainB ++ [')', ')']))) =
      .ok (.opening :: .opening :: (s.tokens ++
        .closing :: .operator op :: .opening :: (t.tokens ++ [.closing, .closing]))) := by
  have opening : Token.ofChar? '(' = some .opening := rfl
  have closing : Token.ofChar? ')' = some .closing := rfl
  have delimited (rest : List Char) : Delimited (')' :: rest) := delimited_cons.mpr (.inr rfl)
  rw [Token.scan_ofChar opening, Token.scan_ofChar opening, Token.scan_append left (delimited _),
    Token.scan_ofChar closing, Token.scan_ofChar (Token.ofChar?_symbol op),
    Token.scan_ofChar opening, Token.scan_append right (delimited _), Token.scan_ofChar closing,
    Token.scan_ofChar closing, Token.scan_nil]
  rfl

/-- An operation on two expressions that each have a value, in parentheses, comes to the operation
on the values, or is refused because that is not finite, or, and only then, because an expression
is nested so deep that two more parentheses are too many: no length, no numeral and no operand
goes on over a parenthesis. -/
theorem pixels_composed (op : Operator) (left : value scale axis a = .ok x)
    (right : value scale axis b = .ok y) :
    ∃ m n, (∀ depth, Nests scale axis a depth ↔ depth = m) ∧
      (∀ depth, Nests scale axis b depth ↔ depth = n) ∧
      pixels scale axis ("calc((".toList ++ a ++ ')' :: op.symbol :: '(' :: b ++ "))".toList) =
        if max m n + 2 ≤ Formula.maxNesting then
          if (op.apply x y).isFinite then .ok (op.apply x y) else .error .notFinite
        else .error (.malformed .nestedTooDeeply) := by
  obtain ⟨plainA, _, _, replacedA, scannedA, parsedA, rfl⟩ := exists_parse_of_value left
  obtain ⟨plainB, _, _, replacedB, scannedB, parsedB, rfl⟩ := exists_parse_of_value right
  obtain ⟨s, rfl, _, rfl⟩ := Formula.exists_sentence_of_parse parsedA
  obtain ⟨t, rfl, _, rfl⟩ := Formula.exists_sentence_of_parse parsedB
  obtain ⟨u, tokens, depth, tree⟩ := Phrase.exists_combination op s t
  refine ⟨s.depth, t.depth, nests_iff replacedA scannedA, nests_iff replacedB scannedB, ?_⟩
  have read :
      Formula.read ('(' :: '(' :: (plainA ++ ')' :: op.symbol :: '(' :: (plainB ++ [')', ')']))) =
        if max s.depth t.depth + 2 ≤ Formula.maxNesting then .ok u.tree
        else .error .nestedTooDeeply := by
    rw [Formula.read, scan_composed op scannedA scannedB, ← tokens, ← depth]
    exact Formula.parse_sentence u
  have result : u.tree.value = op.apply s.tree.value t.tree.value := by
    rw [tree]
    rfl
  rw [pixels, body_composed, value, inPixels_composed op replacedA replacedB]
  by_cases within : max s.depth t.depth + 2 ≤ Formula.maxNesting
  · rw [if_pos within] at read ⊢
    simp only [read]
    rw [← result]
    rfl
  · rw [if_neg within] at read ⊢
    simp only [read]
    rfl

theorem pixels_composed_quotient :
    let scale := (Scale.ofPercents 1 1).set .em (-16)
    value scale .horizontal "2em".toList = .ok (-32) ∧
      value scale .horizontal "-(1 + 1)".toList = .ok (-2) ∧
      ∃ m n, (∀ depth, Nests scale .horizontal "2em".toList depth ↔ depth = m) ∧
        (∀ depth, Nests scale .horizontal "-(1 + 1)".toList depth ↔ depth = n) ∧
        pixels scale .horizontal "calc((2em)/(-(1 + 1)))".toList =
          if max m n + 2 ≤ Formula.maxNesting then .ok 16
            else .error (.malformed .nestedTooDeeply) := by
  intro scale
  have left : value scale .horizontal "2em".toList = .ok (-32) := by decide +kernel
  have right : value scale .horizontal "-(1 + 1)".toList = .ok (-2) := by decide +kernel
  have quotient : Operator.divide.apply (-32) (-2) = 16 := by decide +kernel
  have finite : Float.isFinite 16 = true := by decide +kernel
  obtain ⟨m, n, nestsLeft, nestsRight, result⟩ := pixels_composed .divide left right
  rw [quotient, if_pos finite] at result
  exact ⟨left, right, m, n, nestsLeft, nestsRight, result⟩

end Calc

end CalcLength
