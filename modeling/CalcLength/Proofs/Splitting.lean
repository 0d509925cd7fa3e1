import CalcLength.Proofs.Delimiter

namespace CalcLength

/-- Whether a literal can be the number of a length, which never ends in its point. -/
def Literal.Proper (l : Literal) : Prop :=
  l.fraction? ≠ some []

namespace NumberShape

variable {cs : List Char}

/-- A number ends in a digit or in its point. -/
theorem no_letter_at_end (shape : NumberShape Text.isDecimalDigit cs) {before : List Char}
    {letter : Char} (here : cs = before ++ [letter]) : ¬IsPowerLetter letter := by
  have ends := shape.getLast? (by rw [here, List.getLast?_concat])
  rintro (rfl | rfl)
  · rcases ends with digit | point
    · cases digit
    · cases point
  · rcases ends with digit | point
    · cases digit
    · cases point

/-- A suffix would go on from a letter inside a number in a way that no number does. -/
theorem no_suffix_inside (shape : NumberShape Text.isDecimalDigit cs) {before tail rest : List Char}
    (here : cs = before ++ tail) (some_tail : tail ≠ []) (suffix : Suffix) :
    ¬suffix.letters <+: tail ++ rest := by
  rintro ⟨after, same⟩
  have inside {c : Char} (member : c ∈ tail) :=
    shape.mem (here ▸ List.mem_append_right before member)
  obtain ⟨c, more, letters, behind⟩ := suffix.letters_eq_cons
  have apart := Suffix.not_in_number_of_mem (letters ▸ List.mem_cons_self : c ∈ suffix.letters)
  rw [letters] at same
  cases tail with
  | nil => exact some_tail rfl
  | cons d tail =>
    obtain ⟨rfl, next⟩ := List.cons.inj same
    have isLetter : IsPowerLetter c := by
      rcases inside (List.mem_cons_self ..) with digit | point | letter | sign
      · rw [apart.1] at digit
        cases digit
      · exact absurd point apart.2.1
      · exact letter
      · rcases sign with plus | minus
        · exact absurd plus apart.2.2.1
        · exact absurd minus apart.2.2.2.1
    obtain ⟨d, more, rfl, other, no_point, no_letter, no_sign⟩ := behind isLetter
    cases tail with
    | nil => exact shape.no_letter_at_end here isLetter
    | cons e tail =>
      obtain ⟨rfl, _⟩ := List.cons.inj next
      rcases inside (List.mem_cons_of_mem _ (List.mem_cons_self ..)) with
        digit | point | letter | sign
      · rw [other] at digit
        cases digit
      · exact no_point point
      · exact no_letter letter
      · exact no_sign sign

end NumberShape

namespace Literal

theorem wideShape (l : Literal) : NumberShape Text.isDecimalDigit l.text :=
  l.numberShape.mono fun _ => Text.isDecimalDigit_of_isDigit

theorem no_suffix_inside (l : Literal) {before tail rest : List Char}
    (here : l.text = before ++ tail) (some_tail : tail ≠ []) (suffix : Suffix) :
    ¬suffix.letters <+: tail ++ rest :=
  l.wideShape.no_suffix_inside here some_tail suffix

theorem isNumber {l : Literal} (proper : l.Proper) : IsNumber l.text := by
  have isDigits {digits : List Char} (some_digit : digits ≠ [])
      (isDigit : ∀ c ∈ digits, c.isDigit = true) : IsDigits digits :=
    ⟨some_digit, fun c member => Text.isDecimalDigit_of_isDigit (isDigit c member)⟩
  have isPower : powerText l.power? = [] ∨ IsPower (powerText l.power?) := by
    cases l.power? with
    | none => exact .inl rfl
    | some p => exact .inr (.power p.letter_eq p.sign_eq (isDigits p.digits_ne_nil p.isDigit))
  have isFraction : l.fraction? = none ∨ IsFraction (pointText l.fraction?) := by
    have isDigit := l.fraction_isDigit
    cases fraction : l.fraction? with
    | none => exact .inl rfl
    | some digits =>
      rw [fraction] at isDigit
      refine .inr (.point (isDigits ?_ isDigit))
      rintro rfl
      exact proper fraction
  rw [text]
  by_cases none : l.whole = []
  · rw [none]
    refine .point (isFraction.resolve_left fun no_fraction => ?_) isPower
    rcases l.some_digit with some_whole | some_fraction
    · exact some_whole none
    · rw [no_fraction] at some_fraction
      exact some_fraction rfl
  · exact .whole (isDigits none l.whole_isDigit)
      (isFraction.imp_left fun none => by rw [none]; rfl) isPower

end Literal

theorem Delimited.no_suffix {cs : List Char} (delimited : Delimited cs) (suffix : Suffix) :
    ¬suffix.letters <+: cs := by
  rintro ⟨after, rfl⟩
  obtain ⟨c, more, letters, _⟩ := suffix.letters_eq_cons
  rw [letters] at delimited
  exact (delimited_cons.mp delimited).not_mem_letters suffix (letters ▸ List.mem_cons_self)

namespace Piece

theorem digits_append {first : List Char} (digit : ∀ c ∈ first, Text.isDecimalDigit c = true)
    (rest : List Char) : digits (first ++ rest) = first ++ digits rest :=
  List.takeWhile_append_of_pos digit

theorem digits_eq_nil {rest : List Char}
    (ends : ∀ c, rest.head? = some c → Text.isDecimalDigit c = false) : digits rest = [] := by
  cases rest with
  | nil => rfl
  | cons c rest => exact List.takeWhile_cons_of_neg (by rw [ends c rfl]; decide)

theorem fraction_append {point rest : List Char} (isFraction : point = [] ∨ IsFraction point)
    (ends : ∀ c, rest.head? = some c → Text.isDecimalDigit c = false ∧ c ≠ '.') :
    fraction (point ++ rest) = point := by
  rcases isFraction with rfl | isFraction
  · cases rest with
    | nil => rfl
    | cons c rest =>
      rw [List.nil_append, fraction.eq_2]
      rintro after same
      exact (ends c rfl).2 (List.cons.inj same).1
  · cases isFraction with
    | point isDigits =>
      simp only [List.cons_append, fraction]
      rw [digits_append isDigits.2, digits_eq_nil fun c first => (ends c first).1, List.append_nil,
        List.isEmpty_eq_false_iff.mpr isDigits.1]
      rfl

theorem sign_append {sign_ size : List Char} (rest : List Char)
    (sign_eq : sign_ = [] ∨ sign_ = ['+'] ∨ sign_ = ['-']) (isDigits : IsDigits size) :
    sign (sign_ ++ (size ++ rest)) = sign_ := by
  rcases sign_eq with rfl | rfl | rfl
  · cases size with
    | nil => exact absurd rfl isDigits.1
    | cons c size =>
      have digit := isDigits.2 c (List.mem_cons_self ..)
      rw [List.nil_append, List.cons_append, sign.eq_3]
      · rintro after same
        rw [(List.cons.inj same).1] at digit
        cases digit
      · rintro after same
        rw [(List.cons.inj same).1] at digit
        cases digit
  · rfl
  · rfl

theorem power_append {cs rest : List Char} (isPower : IsPower cs)
    (ends : ∀ c, rest.head? = some c → Text.isDecimalDigit c = false) :
    power (cs ++ rest) = cs := by
  cases isPower with
  | @power letter signs size isLetter isSign isDigits =>
    have letter : (letter = 'e' || letter = 'E') = true := by
      rcases isLetter with rfl | rfl <;> decide
    rw [List.cons_append, List.append_assoc]
    simp only [power, sign_append rest isSign isDigits, List.drop_left, digits_append isDigits.2,
      digits_eq_nil ends, List.append_nil, letter, List.isEmpty_eq_false_iff.mpr isDigits.1,
      Bool.not_false, Bool.and_self, if_true]

/-- The number of a length is found with all that belongs to it. -/
theorem number_append {cs rest : List Char} (isNumber : IsNumber cs)
    (ends : ∀ c, rest.head? = some c → Text.isDecimalDigit c = false ∧ c ≠ '.')
    (no_power : power rest = []) : number (cs ++ rest) = cs := by
  obtain ⟨whole, point, powers, rfl, isDigit, isFraction, isPower, some_digit⟩ :=
    isNumber.exists_parts
  have tail_power : power (powers ++ rest) = powers := by
    rcases isPower with rfl | isPower
    · exact no_power
    · exact power_append isPower fun c first => (ends c first).1
  have tail_ends : ∀ c, (powers ++ rest).head? = some c →
      Text.isDecimalDigit c = false ∧ c ≠ '.' := by
    rcases isPower with rfl | isPower
    · exact ends
    · cases isPower with
      | power isLetter =>
        intro c first
        cases first
        rcases isLetter with rfl | rfl <;> decide
  have middle_ends : ∀ c, (point ++ (powers ++ rest)).head? = some c →
      Text.isDecimalDigit c = false := by
    rcases isFraction with rfl | isFraction
    · exact fun c first => (tail_ends c first).1
    · cases isFraction with
      | point =>
        intro c first
        cases first
        decide
  have whole_digits : digits (whole ++ (point ++ (powers ++ rest))) = whole := by
    rw [digits_append isDigit, digits_eq_nil middle_ends, List.append_nil]
  have some_digit : ¬(whole.isEmpty && point.isEmpty) = true := by
    simpa only [Bool.and_eq_true, List.isEmpty_iff,
      Decidable.not_and_iff_not_or_not] using some_digit
  have behind :
      (whole ++ (point ++ (powers ++ rest))).drop (whole ++ point).length = powers ++ rest := by
    rw [← List.append_assoc, List.drop_left]
  rw [List.append_assoc, List.append_assoc]
  simp only [number, whole_digits, List.drop_left, fraction_append isFraction tail_ends,
    if_neg some_digit, behind, tail_power]

theorem power_letters (suffix : Suffix) (rest : List Char) :
    power (suffix.letters ++ rest) = [] := by
  obtain ⟨c, more, letters, behind⟩ := suffix.letters_eq_cons
  rw [letters, List.cons_append]
  simp only [power]
  rw [if_neg]
  simp only [Bool.and_eq_true, Bool.or_eq_true, decide_eq_true_eq, Bool.not_eq_true',
    List.isEmpty_eq_false_iff]
  rintro ⟨letter, some_digit⟩
  obtain ⟨d, more, rfl, other, _, _, no_sign⟩ := behind letter
  have unsigned : sign (d :: more ++ rest) = [] := by
    rw [List.cons_append, sign.eq_3]
    · rintro after same
      exact no_sign (.inl (List.cons.inj same).1)
    · rintro after same
      exact no_sign (.inr (List.cons.inj same).1)
  rw [unsigned, List.length_nil, List.drop_zero, digits_eq_nil] at some_digit
  · exact some_digit rfl
  · intro e first
    cases first
    exact other

/-- A length at the head of the text is found. -/
theorem scan?_append {number : List Char} (isNumber : IsNumber number) (suffix : Suffix)
    (rest : List Char) :
    scan? (number ++ (suffix.letters ++ rest)) = some (number, suffix, rest) := by
  have ends : ∀ c, (suffix.letters ++ rest).head? = some c →
      Text.isDecimalDigit c = false ∧ c ≠ '.' := by
    obtain ⟨d, more, letters, _⟩ := suffix.letters_eq_cons
    intro c first
    rw [letters] at first
    cases first
    have apart := Suffix.not_in_number_of_mem (letters ▸ List.mem_cons_self : d ∈ suffix.letters)
    exact ⟨apart.1, apart.2.1⟩
  have some_number : ¬number.isEmpty = true := by
    rw [List.isEmpty_iff]
    exact isNumber.numberShape.ne_nil
  simp only [scan?, number_append isNumber ends (power_letters suffix rest), if_neg some_number,
    List.drop_left, Suffix.scan?_append, Option.map_some]

theorem scan?_length {l : Literal} (proper : l.Proper) (suffix : Suffix) (rest : List Char) :
    scan? (l.text ++ (suffix.letters ++ rest)) = some (l.text, suffix, rest) :=
  scan?_append (Literal.isNumber proper) suffix rest

/-- What is found at the head of a text is a length, with a number that it may have. -/
theorem scan?_isNumber {cs number rest : List Char} {suffix : Suffix}
    (found : scan? cs = some (number, suffix, rest)) :
    cs = number ++ (suffix.letters ++ rest) ∧ IsNumber number := by
  have apart := scan?_eq_some found
  simp only [scan?, Option.ite_none_left_eq_some, Option.map_eq_some_iff, Prod.mk.injEq] at found
  obtain ⟨_, _, _, same, _⟩ := found
  refine ⟨by rw [apart.1, List.append_assoc], ?_⟩
  have number := isNumber (same ▸ apart.2)
  rwa [same] at number

theorem scan?_parts {cs number rest : List Char} {suffix : Suffix}
    (found : scan? cs = some (number, suffix, rest)) :
    cs = number ++ (suffix.letters ++ rest) ∧ NumberShape Text.isDecimalDigit number :=
  (scan?_isNumber found).imp_right IsNumber.numberShape

theorem scan?_eq_none_of_head {c : Char} {cs : List Char} (other : Text.isDecimalDigit c = false)
    (no_point : c ≠ '.') : scan? (c :: cs) = none := by
  cases found : scan? (c :: cs) with
  | none => rfl
  | some length =>
    obtain ⟨number, suffix, rest⟩ := length
    obtain ⟨text, shape⟩ := scan?_parts found
    cases number with
    | nil => exact absurd rfl shape.ne_nil
    | cons d number =>
      obtain ⟨rfl, _⟩ := List.cons.inj text
      rcases shape.head? rfl with digit | point
      · rw [other] at digit
        cases digit
      · exact absurd point no_point

/-- No length starts inside a literal that a delimiter ends. -/
theorem scan?_eq_none_of_literal {l : Literal} {before tail rest : List Char}
    (here : l.text = before ++ tail) (some_tail : tail ≠ []) (delimited : Delimited rest) :
    scan? (tail ++ rest) = none := by
  cases found : scan? (tail ++ rest) with
  | none => rfl
  | some length =>
    exfalso
    obtain ⟨number, suffix, after⟩ := length
    obtain ⟨text, shape⟩ := scan?_parts found
    rcases List.append_eq_append_iff.mp text with ⟨between, rfl, same⟩ | ⟨between, rfl, same⟩
    · cases between with
      | nil => exact delimited.no_suffix suffix ⟨after, same.symm⟩
      | cons d between =>
        -- The number would have to go on with the delimiter, which can only be the sign of a power.
        have apart := (delimited_cons.mp (same ▸ delimited) : Delimits d).not_in_number
        rcases shape.mem (List.mem_append_right _ (List.mem_cons_self ..)) with
          digit | point | letter | isSign
        · rw [apart.1] at digit
          cases digit
        · exact apart.2.1 point
        · exact apart.2.2 letter
        · have no_digit : ∀ c, IsSign c → Text.isDecimalDigit c = false := by
            rintro c (rfl | rfl) <;> decide
          obtain ⟨first, letter, rfl, isLetter⟩ := shape.letter_before_sign no_digit rfl isSign
          exact l.wideShape.no_letter_at_end (here.trans (List.append_assoc ..).symm) isLetter
    · cases between with
      | nil => exact delimited.no_suffix suffix ⟨after, same⟩
      | cons d between =>
        have inside : l.text = before ++ number ++ d :: between := by rw [here, List.append_assoc]
        exact l.no_suffix_inside inside (List.cons_ne_nil _ _) suffix ⟨after, same⟩

theorem split_length {cs number rest : List Char} {suffix : Suffix}
    (found : scan? cs = some (number, suffix, rest)) :
    split cs = .length number suffix :: split rest := by
  cases cs with
  | nil => cases found
  | cons c cs =>
    rw [split.eq_2]
    split
    · rename_i found'
      rw [found] at found'
      cases found'
      rfl
    · rename_i none
      rw [found] at none
      cases none

theorem split_plain {c : Char} {rest : List Char} (none : scan? (c :: rest) = none) :
    split (c :: rest) = .plain c :: split rest := by
  rw [split.eq_2]
  split
  · rename_i found
    rw [none] at found
    cases found
  · rfl

theorem split_delimiter {c : Char} (delimits : Delimits c) (rest : List Char) :
    split (c :: rest) = .plain c :: split rest := by
  have apart := delimits.not_in_number
  exact split_plain (scan?_eq_none_of_head apart.1 apart.2.1)

/-- A literal that a delimiter ends belongs to no length. -/
theorem split_literal (l : Literal) {rest : List Char} (delimited : Delimited rest) :
    split (l.text ++ rest) = l.text.map plain ++ split rest := by
  have tails : ∀ tail before, l.text = before ++ tail →
      split (tail ++ rest) = tail.map plain ++ split rest := by
    intro tail
    induction tail with
    | nil => exact fun _ _ => rfl
    | cons c tail ih =>
      intro before here
      have none := scan?_eq_none_of_literal here (List.cons_ne_nil _ _) delimited
      rw [List.cons_append] at none ⊢
      rw [split_plain none,
        ih (before ++ [c]) (by rw [here, List.append_assoc, List.singleton_append]),
        List.map_cons, List.cons_append]
  exact tails l.text [] rfl

end Piece

end CalcLength
