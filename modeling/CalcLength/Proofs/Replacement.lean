import CalcLength.Proofs.Disturbance

namespace CalcLength

namespace Piece

/-- A point with no digit behind it does not belong to the number of a length. -/
theorem number_point {whole tail : List Char} (isDigit : ∀ c ∈ whole, c.isDigit = true)
    (ends : ∀ c, tail.head? = some c → Text.isDecimalDigit c = false) :
    number (whole ++ '.' :: tail) = whole := by
  have digits_eq : digits (whole ++ '.' :: tail) = whole := by
    rw [digits_append fun c member => Text.isDecimalDigit_of_isDigit (isDigit c member),
      digits_eq_nil (fun c first => by cases first; decide), List.append_nil]
  have fraction_eq : fraction ('.' :: tail) = [] := by
    rw [fraction, digits_eq_nil ends]
    rfl
  have power_eq : power ('.' :: tail) = [] := rfl
  simp only [number, digits_eq, List.drop_left, fraction_eq, List.append_nil, power_eq]
  split
  · rename_i none
    rw [Bool.and_eq_true, List.isEmpty_iff] at none
    exact none.1.symm
  · rfl

theorem scan?_number {cs number rest : List Char} {suffix : Suffix}
    (found : scan? cs = some (number, suffix, rest)) : Piece.number cs = number := by
  simp only [scan?, Option.ite_none_left_eq_some, Option.map_eq_some_iff, Prod.mk.injEq] at found
  obtain ⟨_, _, _, same, _⟩ := found
  exact same

end Piece

namespace Calc

variable {scale : Scale} {axis : Axis} {past cs plain : List Char}

/-- What has a number of pixels is a length with a number that it may have. -/
theorem exists_length_of_lengthPixels {number rest : List Char} {suffix : Suffix} {x : Float}
    (found : Piece.scan? cs = some (number, suffix, rest))
    (measured : lengthPixels scale axis number suffix = .ok x) :
    ∃ l : Literal, number = l.text ∧ l.Proper ∧
      (Leaf.length l suffix).pixels scale axis = .ok x := by
  have read : ∃ y, Numeral.read? number = some y := by
    unfold lengthPixels at measured
    split at measured
    · cases measured
    · rename_i y here
      exact ⟨y, here⟩
  obtain ⟨y, read⟩ := read
  obtain ⟨l, rfl, _⟩ := Numeral.exists_literal_of_read? read
  refine ⟨l, rfl, fun lone => ?_, (lengthPixels_text l suffix).symm.trans measured⟩
  obtain ⟨text, _⟩ := Piece.scan?_parts found
  have number := Piece.scan?_number found
  have pointed : l.text ++ (suffix.letters ++ rest) =
      l.whole ++ '.' :: (Literal.powerText l.power? ++ (suffix.letters ++ rest)) := by
    rw [Literal.text, lone, Literal.pointText]
    simp only [List.append_assoc, List.cons_append, List.nil_append]
  have ends : ∀ c, (Literal.powerText l.power? ++ (suffix.letters ++ rest)).head? = some c →
      Text.isDecimalDigit c = false := by
    obtain ⟨d, more, letters, _⟩ := suffix.letters_eq_cons
    intro c first
    cases power : l.power? with
    | none =>
      rw [power, letters] at first
      cases first
      exact (Suffix.not_in_number_of_mem (letters ▸ List.mem_cons_self : d ∈ suffix.letters)).1
    | some p =>
      rw [power] at first
      cases first
      rcases p.letter_eq with same | same <;> rw [same] <;> decide
  rw [text, pointed, Piece.number_point l.whole_isDigit ends] at number
  have short := congrArg List.length number
  rw [Literal.text, lone, Literal.pointText, List.length_append, List.length_append,
    List.length_cons] at short
  omega

/-- Whether a part of an expression is replaced by a plain text, with no length
disturbing what is around it. -/
structure Replaces (scale : Scale) (axis : Axis) (past cs plain : List Char) : Prop where
  undisturbed : Undisturbed scale axis past (Piece.split cs)
  replaced : inPixels scale axis past.getLast? (Piece.split cs) = .ok plain

theorem Replaces.eq_nil (replaces : Replaces scale axis past [] plain) : plain = [] := by
  have replaced := replaces.replaced
  rw [Piece.split] at replaced
  cases replaced
  rfl

theorem Replaces.of_plain {c : Char} (none : Piece.scan? (c :: cs) = none)
    (replaces : Replaces scale axis past (c :: cs) plain) :
    ∃ rest, plain = c :: rest ∧ Replaces scale axis (past ++ [c]) cs rest := by
  obtain ⟨undisturbed, replaced⟩ := replaces
  rw [Piece.split_plain none] at undisturbed replaced
  obtain ⟨rest, goes_on, rfl⟩ := exists_of_map_eq_ok replaced
  refine ⟨rest, rfl, undisturbed_plain.mp undisturbed, ?_⟩
  rw [List.getLast?_concat]
  exact goes_on

/-- What a length that is replaced comes with. -/
structure LengthReplaced (scale : Scale) (axis : Axis) (past plain : List Char) (l : Literal)
    (suffix : Suffix) (rest : List Char) (x : Float) (plainRest : List Char) : Prop where
  proper : l.Proper
  pixels : (Leaf.length l suffix).pixels scale axis = .ok x
  apart : standsApart past.getLast? rest.head? = true
  no_power : ¬EndsInPower past
  opens : Binary64.isNegative x = true → Opens past
  text : plain = Number.write x ++ plainRest
  replaces : Replaces scale axis (past ++ (l.text ++ suffix.letters)) rest plainRest

theorem Replaces.of_length {number rest : List Char} {suffix : Suffix}
    (found : Piece.scan? cs = some (number, suffix, rest))
    (replaces : Replaces scale axis past cs plain) :
    ∃ l x plainRest, number = l.text ∧
      LengthReplaced scale axis past plain l suffix rest x plainRest := by
  obtain ⟨undisturbed, replaced⟩ := replaces
  rw [Piece.split_length found] at undisturbed replaced
  obtain ⟨⟨no_power, opens⟩, undisturbed⟩ := undisturbed_length.mp undisturbed
  rw [inPixels, Piece.first?_split] at replaced
  split at replaced
  · rename_i apart
    split at replaced
    · rename_i x measured
      obtain ⟨plainRest, goes_on, rfl⟩ := exists_of_map_eq_ok replaced
      obtain ⟨l, rfl, proper, pixels⟩ := exists_length_of_lengthPixels found measured
      refine ⟨l, x, plainRest, rfl, proper, pixels, apart, no_power, opens x measured,
        rfl, undisturbed, ?_⟩
      obtain ⟨c, last⟩ := exists_getLast? suffix.letters_ne_nil
      rw [List.getLast?_append, List.getLast?_append, last]
      rw [last] at goes_on
      exact goes_on
    · cases replaced
  · cases replaced

/-- Where a character joins, no length that is replaced goes on. -/
theorem standsApart_eq_false {before after : Option Char} {c : Char}
    (here : before = some c ∨ after = some c) (joins_ : joins c = true) :
    standsApart before after = false := by
  rcases here with rfl | rfl
  · rw [standsApart, Option.any_some, joins_]
    rfl
  · rw [standsApart, Option.any_some, joins_, Bool.and_comm]
    rfl

theorem joins_of_beginsNumeral {c : Char} (begins : Token.BeginsNumeral c) : joins c = true := by
  rcases begins with digit | rfl
  · rw [joins, Char.isAlphanum, digit, Bool.or_true, Bool.true_or]
  · rfl

/-- A length that began inside a literal would stand behind a character that joins, or
behind the sign of a power. -/
theorem LengthReplaced.not_inside {l l' : Literal} {suffix : Suffix}
    {front tail rest plainRest : List Char} {last : Char} {x : Float}
    (text : l.text = front ++ last :: tail)
    (replaced : LengthReplaced scale axis (past ++ (front ++ [last]))
      plain l' suffix rest x plainRest) : False := by
  have no_join : joins last ≠ true := by
    intro joined
    have apart := replaced.apart
    rw [← List.append_assoc, List.getLast?_concat, standsApart_eq_false (.inl rfl) joined] at apart
    cases apart
  rcases l.numberShape.mem (text ▸ List.mem_append_right _ (List.mem_cons_self ..)) with digit |
    point | letter | sign
  · exact no_join (joins_of_beginsNumeral (.inl digit))
  · exact no_join (joins_of_beginsNumeral (.inr point))
  · exact no_join (by rcases letter with rfl | rfl <;> decide)
  · obtain ⟨before, letter, rfl, isLetter⟩ :=
      l.numberShape.letter_before_sign (by rintro c (rfl | rfl) <;> decide) text sign
    refine replaced.no_power ?_
    rw [← List.append_assoc, endsInPower_concat]
    exact ⟨⟨past ++ before, letter, (List.append_assoc ..).symm, isLetter⟩, sign⟩

/-- What is left of a literal in the plain text stands in the expression as it is. -/
theorem Replaces.of_rest_of_literal {l : Literal} {done tail after : List Char}
    (here : l.text = done ++ tail) (first : done = [] → Piece.scan? cs = none)
    (replaces : Replaces scale axis (past ++ done) cs (tail ++ after)) :
    ∃ rest, cs = tail ++ rest ∧ Replaces scale axis (past ++ l.text) rest after := by
  induction tail generalizing done cs with
  | nil =>
    rw [List.append_nil] at here
    exact ⟨cs, rfl, here ▸ replaces⟩
  | cons c tail ih =>
    cases found : Piece.scan? cs with
    | some length =>
      obtain ⟨l', x, plainRest, _, replaced⟩ := replaces.of_length found
      rcases List.eq_nil_or_concat' done with empty | ⟨front, last, rfl⟩
      · rw [first empty] at found
        cases found
      · have text : l.text = front ++ last :: (c :: tail) := by rw [here]; simp
        exact (replaced.not_inside text).elim
    | none =>
      cases cs with
      | nil => cases replaces.eq_nil
      | cons d cs =>
        obtain ⟨plainRest, same, goes_on⟩ := replaces.of_plain found
        obtain ⟨rfl, rfl⟩ := List.cons.inj same
        rw [List.append_assoc] at goes_on
        have here : l.text = (done ++ [c]) ++ tail := by rw [here]; simp
        obtain ⟨rest, rfl, behind⟩ := ih here (fun empty => by simp at empty) goes_on
        exact ⟨rest, rfl, behind⟩

/-- A literal in the plain text stands in the expression as it is. -/
theorem Replaces.of_literal {l : Literal} {after : List Char} (none : Piece.scan? cs = none)
    (replaces : Replaces scale axis past cs (l.text ++ after)) :
    ∃ rest, cs = l.text ++ rest ∧ Replaces scale axis (past ++ l.text) rest after := by
  rw [← List.append_nil past] at replaces
  exact replaces.of_rest_of_literal rfl fun _ => none

/-- Behind a number an expression whose plain text is scanned goes on as the
plain text does, with no letter. -/
theorem Replaces.head? {c : Char} {tokens : List Token} (last : past.getLast? = some c)
    (joined : joins c = true) (replaces : Replaces scale axis past cs plain)
    (scanned : Token.scan plain = .ok tokens) :
    cs.head? = plain.head? ∧ ∀ d, cs.head? = some d → Delimits d ∨ Token.BeginsNumeral d := by
  cases cs with
  | nil =>
    rw [replaces.eq_nil]
    exact ⟨rfl, nofun⟩
  | cons d cs =>
    cases found : Piece.scan? (d :: cs) with
    | some length =>
      obtain ⟨l, x, plainRest, _, replaced⟩ := replaces.of_length found
      have apart := replaced.apart
      rw [standsApart_eq_false (.inl last) joined] at apart
      cases apart
    | none =>
      obtain ⟨plainRest, rfl, _⟩ := replaces.of_plain found
      refine ⟨rfl, fun e first => ?_⟩
      cases first
      exact Token.delimits_or_beginsNumeral scanned

theorem ends_of_head? {l : Literal} (ends : l.Ends plain) (same : cs.head? = plain.head?)
    (no_letter : ∀ d, cs.head? = some d → ¬IsPowerLetter d) : l.Ends cs where
  digit := by rw [same]; exact ends.digit
  point := by rw [same]; exact ends.point
  power _ := Numeral.power?_eq_none no_letter

/-- Behind a length an expression goes on with what ends every number. -/
theorem Replaces.ends (replaces : Replaces scale axis past cs plain)
    (apart : cs.head?.any joins = false) (l : Literal) : l.Ends plain := by
  cases cs with
  | nil =>
    rw [replaces.eq_nil]
    exact delimited_nil.ends l
  | cons d cs =>
    have no_join : joins d = false := apart
    have no_numeral : ¬Token.BeginsNumeral d := by
      intro begins
      rw [joins_of_beginsNumeral begins] at no_join
      cases no_join
    cases found : Piece.scan? (d :: cs) with
    | some length =>
      obtain ⟨number, suffix, rest⟩ := length
      obtain ⟨l', x, plainRest, rfl, _⟩ := replaces.of_length found
      obtain ⟨c, more, text, begins⟩ := Token.exists_eq_cons_of_literal l'
      have whole := (Piece.scan?_parts found).1
      rw [text] at whole
      exact absurd ((List.cons.inj whole).1 ▸ begins) no_numeral
    | none =>
      obtain ⟨plainRest, rfl, _⟩ := replaces.of_plain found
      refine ⟨fun c first => ?_, fun _ _ first => ?_, fun _ => ?_⟩
      · cases first
        exact Bool.eq_false_iff.mpr fun digit => no_numeral (.inl digit)
      · cases first
        exact no_numeral (.inr rfl)
      · refine Numeral.power?_eq_none fun c first letter => ?_
        cases first
        rcases letter with rfl | rfl <;> cases no_join

end Calc

end CalcLength
