import CalcLength.Proofs.Delimiter

namespace CalcLength

theorem exists_of_map_eq_ok {α β ε : Type} {f : α → β} {x : Except ε α} {y : β}
    (mapped : x.map f = .ok y) : ∃ z, x = .ok z ∧ f z = y := by
  cases x with
  | error => cases mapped
  | ok z =>
    cases mapped
    exact ⟨z, rfl, rfl⟩

theorem eq_error_of_map_eq_error {α β ε : Type} {f : α → β} {x : Except ε α} {fault : ε}
    (mapped : x.map f = .error fault) : x = .error fault := by
  cases x with
  | error =>
    cases mapped
    rfl
  | ok => cases mapped

namespace Token

/-- The characters that a numeral may begin with. -/
def BeginsNumeral (c : Char) : Prop :=
  c.isDigit = true ∨ c = '.'

theorem not_beginsNumeral {c : Char} (no_digit : Text.isDecimalDigit c = false)
    (no_point : c ≠ '.') : ¬BeginsNumeral c := by
  rintro (digit | point)
  · rw [not_isDigit_of_not_isDecimalDigit no_digit] at digit
    cases digit
  · exact no_point point

theorem BeginsNumeral.not_delimits {c : Char} (begins : BeginsNumeral c) :
    ¬Delimits c := fun delimits =>
  not_beginsNumeral delimits.not_in_number.1 delimits.not_in_number.2.1 begins

theorem BeginsNumeral.not_isBlank {c : Char} (begins : BeginsNumeral c) :
    Text.isBlank c = false := by
  rw [Bool.eq_false_iff]
  exact fun blank => begins.not_delimits (.inl blank)

theorem BeginsNumeral.ofChar?_eq_none {c : Char} (begins : BeginsNumeral c) : ofChar? c = none := by
  rw [← Option.not_isSome_iff_eq_none]
  exact fun token => begins.not_delimits (.inr token)

theorem exists_eq_cons_of_literal (l : Literal) :
    ∃ c more, l.text = c :: more ∧ BeginsNumeral c := by
  cases text : l.text with
  | nil => exact absurd text l.numberShape.ne_nil
  | cons c more => exact ⟨c, more, rfl, l.numberShape.head? (by rw [text]; rfl)⟩

theorem scan_nil : scan [] = .ok [] := by
  rw [scan]

theorem scan_blank {c : Char} (blank : Text.isBlank c = true) (rest : List Char) :
    scan (c :: rest) = scan rest := by
  rw [scan, if_pos blank]

theorem scan_ofChar {c : Char} {token : Token} (here : ofChar? c = some token) (rest : List Char) :
    scan (c :: rest) = (scan rest).map (token :: ·) := by
  have no_blank : Text.isBlank c = false := by
    rcases eq_of_ofChar? here with ⟨op, rfl, _⟩ | ⟨rfl, _⟩ | ⟨rfl, _⟩
    · cases op <;> rfl
    · rfl
    · rfl
  rw [scan, no_blank]
  simp only [Bool.false_eq_true, if_false, here]

theorem scan_numeral {c : Char} {rest after : List Char} {numeral : Numeral}
    (begins : BeginsNumeral c) (found : Numeral.scan? (c :: rest) = some (numeral, after)) :
    scan (c :: rest) = (scan after).map (.number numeral.value :: ·) := by
  rw [scan, begins.not_isBlank]
  simp only [Bool.false_eq_true, if_false, begins.ofChar?_eq_none]
  split
  · rename_i found'
    rw [found] at found'
    cases found'
    rfl
  · rename_i none
    rw [found] at none
    cases none

theorem scan_literal (l : Literal) {rest : List Char} (ends : l.Ends rest) :
    scan (l.text ++ rest) = (scan rest).map (.number l.value :: ·) := by
  have found := Numeral.scan?_append l ends
  obtain ⟨c, more, text, begins⟩ := exists_eq_cons_of_literal l
  rw [text, List.cons_append] at found ⊢
  exact scan_numeral begins found

/-- How a text whose scan succeeds begins. -/
theorem scan_cons_eq_ok {c : Char} {rest : List Char} {tokens : List Token}
    (scanned : scan (c :: rest) = .ok tokens) :
    (Text.isBlank c = true ∧ scan rest = .ok tokens) ∨
    (∃ token more, ofChar? c = some token ∧ scan rest = .ok more ∧ tokens = token :: more) ∨
    BeginsNumeral c ∧ ∃ (l : Literal) (after : List Char) (more : List Token),
      c :: rest = l.text ++ after ∧ l.Ends after ∧
      scan after = .ok more ∧ tokens = .number l.value :: more := by
  by_cases blank : Text.isBlank c = true
  · rw [scan_blank blank] at scanned
    exact .inl ⟨blank, scanned⟩
  · cases here : ofChar? c with
    | some token =>
      rw [scan_ofChar here] at scanned
      obtain ⟨more, goes_on, rfl⟩ := exists_of_map_eq_ok scanned
      exact .inr (.inl ⟨token, more, rfl, goes_on, rfl⟩)
    | none =>
      rw [scan, if_neg blank] at scanned
      simp only [here] at scanned
      split at scanned
      · rename_i numeral after found
        obtain ⟨more, goes_on, rfl⟩ := exists_of_map_eq_ok scanned
        obtain ⟨l, text, same, ends⟩ := Numeral.exists_literal_of_scan? found
        obtain ⟨d, tail, begins, first⟩ := exists_eq_cons_of_literal l
        refine .inr (.inr ⟨?_, l, after, more, text, ends, goes_on, ?_⟩)
        · rw [begins] at text
          rw [(List.cons.inj text).1]
          exact first
        · rw [Literal.value, same]
      · cases scanned

/-- A token starts with a delimiter or begins a numeral. -/
theorem delimits_or_beginsNumeral {c : Char} {rest : List Char} {tokens : List Token}
    (scanned : scan (c :: rest) = .ok tokens) : Delimits c ∨ BeginsNumeral c := by
  rcases scan_cons_eq_ok scanned with ⟨blank, _⟩ | ⟨token, _, here, _⟩ | ⟨begins, _⟩
  · exact .inl (.inl blank)
  · exact .inl (.inr (by rw [here]; rfl))
  · exact .inr begins

/-- No token starts with another character. -/
theorem scan_illegal {c : Char} (no_delimiter : ¬Delimits c) (no_numeral : ¬BeginsNumeral c)
    (rest : List Char) : scan (c :: rest) = .error .illegalCharacter := by
  have no_blank : ¬Text.isBlank c = true := fun blank => no_delimiter (.inl blank)
  have no_token : ofChar? c = none :=
    Option.not_isSome_iff_eq_none.mp fun token => no_delimiter (.inr token)
  rw [scan, if_neg no_blank]
  simp only [no_token]
  split
  · rename_i found
    obtain ⟨l, text, _, _⟩ := Numeral.exists_literal_of_scan? found
    obtain ⟨d, tail, begins, first⟩ := exists_eq_cons_of_literal l
    rw [begins] at text
    exact absurd ((List.cons.inj text).1 ▸ first) no_numeral
  · rw [if_neg fun point => no_numeral (.inr point)]

end Token

end CalcLength
