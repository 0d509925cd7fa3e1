import CalcLength.Numeral

namespace CalcLength

/-- The text of a power of ten: a letter, perhaps a sign, and digits. -/
structure PowerText where
  letter : Char
  sign : List Char
  digits : List Char
  letter_eq : letter = 'e' ∨ letter = 'E'
  sign_eq : sign = [] ∨ sign = ['+'] ∨ sign = ['-']
  digits_ne_nil : digits ≠ []
  isDigit : ∀ c ∈ digits, c.isDigit = true

def PowerText.text (p : PowerText) : List Char :=
  p.letter :: (p.sign ++ p.digits)

def PowerText.value (p : PowerText) : Int :=
  let size : Int := Nat.ofDigitChars 10 p.digits 0
  if p.sign = ['-'] then -size else size

/-- The text of a number without a sign: `digits [. [digits]] | . digits`,
perhaps with a power of ten. -/
structure Literal where
  whole : List Char
  fraction? : Option (List Char)
  power? : Option PowerText
  whole_isDigit : ∀ c ∈ whole, c.isDigit = true
  fraction_isDigit : ∀ c ∈ fraction?.getD [], c.isDigit = true
  some_digit : whole ≠ [] ∨ fraction?.getD [] ≠ []

namespace Literal

/-- The point and the digits after it. -/
def pointText : Option (List Char) → List Char
  | none => []
  | some digits => '.' :: digits

def powerText : Option PowerText → List Char
  | none => []
  | some p => p.text

def text (l : Literal) : List Char :=
  l.whole ++ pointText l.fraction? ++ powerText l.power?

def numeral (l : Literal) : Numeral where
  whole := l.whole
  fraction := l.fraction?.getD []
  power := l.power?.elim 0 PowerText.value

def value (l : Literal) : Float :=
  l.numeral.value

/-- A literal of nothing but digits. -/
def ofDigits (digits : List Char) (isDigit : ∀ c ∈ digits, c.isDigit = true)
    (some_digit : digits ≠ []) : Literal :=
  ⟨digits, none, none, isDigit, nofun, .inl some_digit⟩

/-- One with a power of ten. -/
def powerOfTen (digits : List Char) (isDigit : ∀ c ∈ digits, c.isDigit = true)
    (some_digit : digits ≠ []) : Literal :=
  ⟨['1'], none, some ⟨'e', [], digits, .inl rfl, .inl rfl, some_digit, isDigit⟩,
    List.all_eq_true.mp rfl, nofun, .inl (List.cons_ne_nil _ _)⟩

/-- Whether what follows a literal does not make it longer. -/
structure Ends (l : Literal) (rest : List Char) : Prop where
  digit : ∀ c, rest.head? = some c → c.isDigit = false
  point : l.fraction? = none → l.power? = none → rest.head? ≠ some '.'
  power : l.power? = none → Numeral.power? rest = none

end Literal

namespace Numeral

theorem digits_append {first : List Char} (digit : ∀ c ∈ first, c.isDigit = true)
    (rest : List Char) : digits (first ++ rest) = first ++ digits rest :=
  List.takeWhile_append_of_pos digit

theorem afterDigits_append {first : List Char} (digit : ∀ c ∈ first, c.isDigit = true)
    (rest : List Char) : afterDigits (first ++ rest) = afterDigits rest :=
  List.dropWhile_append_of_pos digit

theorem digits_eq_nil {rest : List Char} (ends : ∀ c, rest.head? = some c → c.isDigit = false) :
    digits rest = [] := by
  cases rest with
  | nil => rfl
  | cons c rest => exact List.takeWhile_cons_of_neg (by rw [ends c rfl]; decide)

theorem afterDigits_eq_self {rest : List Char}
    (ends : ∀ c, rest.head? = some c → c.isDigit = false) : afterDigits rest = rest := by
  cases rest with
  | nil => rfl
  | cons c rest => exact List.dropWhile_cons_of_neg (by rw [ends c rfl]; decide)

theorem digits_isDigit (cs : List Char) : ∀ c ∈ digits cs, c.isDigit = true :=
  List.all_eq_true.mp (List.all_takeWhile ..)

theorem head?_afterDigits (cs : List Char) :
    ∀ c, (afterDigits cs).head? = some c → c.isDigit = false := by
  intro c first
  have stopped := List.head?_dropWhile_not Char.isDigit cs
  unfold afterDigits at first
  rw [first] at stopped
  simpa using stopped

/-- A sign is taken off where a digit follows it. -/
theorem afterSign_append {sign digits : List Char} (rest : List Char)
    (sign_eq : sign = [] ∨ sign = ['+'] ∨ sign = ['-']) (digits_ne_nil : digits ≠ [])
    (isDigit : ∀ c ∈ digits, c.isDigit = true) :
    afterSign (sign ++ (digits ++ rest)) = digits ++ rest := by
  rcases sign_eq with rfl | rfl | rfl
  · cases digits with
    | nil => exact absurd rfl digits_ne_nil
    | cons c digits =>
      have digit := isDigit c (List.mem_cons_self ..)
      simp only [List.nil_append, List.cons_append, afterSign]
      split
      · rename_i same
        cases same
        simp at digit
      · rename_i same
        cases same
        simp at digit
      · rfl
  · rfl
  · rfl

/-- A power of ten is read with all digits that follow it. -/
theorem power?_text (p : PowerText) (rest : List Char) :
    power? (p.text ++ rest) =
      some (signedWhole (p.sign ++ (p.digits ++ rest)), afterDigits rest) := by
  have letter : (p.letter = 'e' || p.letter = 'E') = true := by
    rcases p.letter_eq with same | same <;> rw [same] <;> decide
  have some_digit : (p.digits ++ digits rest).isEmpty = false :=
    List.isEmpty_eq_false_iff.mpr (List.append_ne_nil_of_left_ne_nil p.digits_ne_nil _)
  rw [PowerText.text, List.cons_append, List.append_assoc, power?,
    afterSign_append rest p.sign_eq p.digits_ne_nil p.isDigit, digits_append p.isDigit, letter,
    some_digit, afterDigits_append p.isDigit]
  rfl

theorem power?_append (p : PowerText) (rest : List Char)
    (ends : ∀ c, rest.head? = some c → c.isDigit = false) :
    power? (p.text ++ rest) = some (p.value, rest) := by
  have minus : ((p.sign ++ (p.digits ++ rest)).head? = some '-') ↔ p.sign = ['-'] := by
    rcases p.sign_eq with same | same | same
    · rw [same, List.nil_append]
      constructor
      · intro first
        obtain ⟨c, digits, rest_eq⟩ := List.exists_cons_of_ne_nil p.digits_ne_nil
        have digit := p.isDigit c (by rw [rest_eq]; exact List.mem_cons_self ..)
        rw [rest_eq] at first
        cases first
        simp at digit
      · intro same
        cases same
    · rw [same]
      simp
    · rw [same]
      simp
  rw [power?_text, afterDigits_eq_self ends, signedWhole, PowerText.value,
    afterSign_append rest p.sign_eq p.digits_ne_nil p.isDigit, digits_append p.isDigit,
      digits_eq_nil ends, List.append_nil]
  simp only [minus]

/-- A power that is read has a text, and no digit follows it. -/
theorem exists_powerText {cs rest : List Char} {power : Int}
    (found : power? cs = some (power, rest)) :
    ∃ p : PowerText, cs = p.text ++ rest ∧ p.value = power ∧
      ∀ c, rest.head? = some c → c.isDigit = false := by
  cases cs with
  | nil => cases found
  | cons letter cs =>
    simp only [power?, Option.ite_none_right_eq_some, Option.some.injEq, Prod.mk.injEq,
      Bool.and_eq_true, Bool.or_eq_true, decide_eq_true_eq, Bool.not_eq_true',
      List.isEmpty_eq_false_iff] at found
    obtain ⟨⟨letter_eq, some_digit⟩, rfl, rfl⟩ := found
    obtain ⟨sign, sign_eq, apart, minus⟩ : ∃ sign : List Char,
      (sign = [] ∨ sign = ['+'] ∨ sign = ['-']) ∧
        cs = sign ++ afterSign cs ∧ (cs.head? = some '-' ↔ sign = ['-']) := by
      unfold afterSign
      split
      · exact ⟨['-'], by simp⟩
      · exact ⟨['+'], by simp⟩
      · rename_i no_minus _
        refine ⟨[], .inl rfl, rfl, fun first => ?_,
          fun same => absurd same.symm (List.cons_ne_nil _ _)⟩
        obtain ⟨rest, rfl⟩ := List.head?_eq_some_iff.mp first
        exact absurd rfl (no_minus rest)
    refine ⟨⟨letter, sign, digits (afterSign cs), letter_eq, sign_eq, some_digit, digits_isDigit _⟩,
      ?_, ?_, head?_afterDigits _⟩
    · rw [PowerText.text, List.cons_append, List.append_assoc, digits_append_afterDigits, ← apart]
    · simp only [PowerText.value, signedWhole, minus]

/-- The point and the digits after it are taken off together. -/
theorem fraction_append (fraction? : Option (List Char)) {rest : List Char}
    (isDigit : ∀ c ∈ fraction?.getD [], c.isDigit = true)
    (ends : ∀ c, rest.head? = some c → c.isDigit = false)
    (point : fraction? = none → rest.head? ≠ some '.') :
    fractionDigits (Literal.pointText fraction? ++ rest) = fraction?.getD [] ∧
      afterFraction (Literal.pointText fraction? ++ rest) = rest := by
  cases fraction? with
  | none =>
    cases rest with
    | nil => exact ⟨rfl, rfl⟩
    | cons c rest =>
      simp only [Literal.pointText, List.nil_append, fractionDigits, afterFraction]
      constructor
      · split
        · rename_i same
          cases same
          exact absurd rfl (point rfl)
        · rfl
      · split
        · rename_i same
          cases same
          exact absurd rfl (point rfl)
        · rfl
  | some fraction =>
    simp only [Option.getD_some] at isDigit ⊢
    simp only [Literal.pointText, List.cons_append, fractionDigits, afterFraction]
    rw [digits_append isDigit, afterDigits_append isDigit, digits_eq_nil ends,
      afterDigits_eq_self ends, List.append_nil]
    exact ⟨rfl, rfl⟩

/-- What the digits and the point of a literal leave is its power and what follows it, or
no more than what follows it. -/
theorem afterFraction_text (l : Literal) (rest : List Char) :
    (∃ p : PowerText, afterFraction (afterDigits (l.text ++ rest)) = p.text ++ rest) ∨
      (afterFraction (afterDigits (l.text ++ rest))).length ≤ rest.length := by
  have digitless (p : PowerText) (rest : List Char) :
      afterDigits (p.text ++ rest) = p.text ++ rest := by
    refine afterDigits_eq_self fun c first => ?_
    cases first
    rcases p.letter_eq with same | same <;> rw [same] <;> decide
  have pointless (p : PowerText) (rest : List Char) :
      afterFraction (p.text ++ rest) = p.text ++ rest := by
    rw [PowerText.text, List.cons_append, afterFraction.eq_2]
    intro after same
    have point := (List.cons.inj same).1
    rcases p.letter_eq with letter | letter <;> simp [letter] at point
  rw [Literal.text, List.append_assoc, List.append_assoc, afterDigits_append l.whole_isDigit]
  cases fraction : l.fraction? with
  | some digits =>
    have isDigit := l.fraction_isDigit
    rw [fraction, Option.getD_some] at isDigit
    have point : afterDigits ('.' :: (digits ++ (Literal.powerText l.power? ++ rest))) =
        '.' :: (digits ++ (Literal.powerText l.power? ++ rest)) :=
      afterDigits_eq_self fun c first => by cases first; decide
    rw [Literal.pointText, List.cons_append, point, afterFraction, afterDigits_append isDigit]
    cases l.power? with
    | some p => exact .inl ⟨p, digitless p rest⟩
    | none => exact .inr (afterDigits_length_le rest)
  | none =>
    rw [Literal.pointText, List.nil_append]
    cases l.power? with
    | some p => exact .inl ⟨p, by rw [Literal.powerText, digitless, pointless]⟩
    | none => exact .inr (Nat.le_trans (afterFraction_length_le _) (afterDigits_length_le rest))

/-- Whatever follows a literal, at least the literal is scanned. -/
theorem scan?_text {l : Literal} {rest after : List Char} {n : Numeral}
    (found : scan? (l.text ++ rest) = some (n, after)) : after.length ≤ rest.length := by
  have left := afterFraction_text l rest
  simp only [scan?] at found
  split at found
  · cases found
  · split at found
    · rename_i taken
      cases found
      rcases left with ⟨p, same⟩ | short
      · rw [same, power?_text] at taken
        cases taken
        exact afterDigits_length_le rest
      · exact Nat.le_trans (Nat.le_of_lt (power?_length_lt taken)) short
    · rename_i none
      cases found
      rcases left with ⟨p, same⟩ | short
      · rw [same, power?_text] at none
        cases none
      · exact short

/-- A literal that ends where what follows begins is scanned as it stands. -/
theorem scan?_append (l : Literal) {rest : List Char} (ends : l.Ends rest) :
    scan? (l.text ++ rest) = some (l.numeral, rest) := by
  have tail_ends : ∀ c, (Literal.powerText l.power? ++ rest).head? = some c →
      c.isDigit = false := by
    cases power : l.power? with
    | none => exact ends.digit
    | some p =>
      intro c first
      cases first
      rcases p.letter_eq with same | same <;> rw [same] <;> decide
  have tail_point : l.fraction? = none → (Literal.powerText l.power? ++ rest).head? ≠ some '.' := by
    intro no_fraction
    cases power : l.power? with
    | none => exact ends.point no_fraction power
    | some p =>
      intro first
      have same : p.letter = '.' := Option.some.inj first
      rcases p.letter_eq with letter | letter <;> simp [letter] at same
  have middle_ends :
      ∀ c, (Literal.pointText l.fraction? ++ (Literal.powerText l.power? ++ rest)).head? = some c →
        c.isDigit = false := by
    cases l.fraction? with
    | none => exact tail_ends
    | some fraction =>
      intro c first
      cases first
      decide
  obtain ⟨fraction_eq, rest_eq⟩ :=
    fraction_append l.fraction? l.fraction_isDigit tail_ends tail_point
  have some_digit : ¬ (l.whole.isEmpty && (l.fraction?.getD []).isEmpty) = true := by
    simpa only [Bool.and_eq_true, List.isEmpty_iff, Decidable.not_and_iff_not_or_not]
      using l.some_digit
  rw [Literal.text, List.append_assoc, List.append_assoc]
  simp only [scan?, digits_append l.whole_isDigit, afterDigits_append l.whole_isDigit,
    digits_eq_nil middle_ends, afterDigits_eq_self middle_ends, List.append_nil, fraction_eq,
    rest_eq, if_neg some_digit]
  cases power : l.power? with
  | none =>
    simp only [Literal.powerText, List.nil_append, ends.power power]
    rw [Literal.numeral, power]
    rfl
  | some p =>
    simp only [Literal.powerText, power?_append p rest ends.digit]
    rw [Literal.numeral, power]
    rfl

/-- What is scanned is the text of a literal, as long as it can be. -/
theorem exists_literal_of_scan? {cs rest : List Char} {n : Numeral}
    (found : scan? cs = some (n, rest)) :
    ∃ l : Literal, cs = l.text ++ rest ∧ l.numeral = n ∧ l.Ends rest := by
  obtain ⟨fraction?, isDigit, apart, fraction_eq, ends, point⟩ : ∃ fraction? : Option (List Char),
      (∀ c ∈ fraction?.getD [], c.isDigit = true) ∧
      afterDigits cs = Literal.pointText fraction? ++ afterFraction (afterDigits cs) ∧
      fractionDigits (afterDigits cs) = fraction?.getD [] ∧
      (∀ c, (afterFraction (afterDigits cs)).head? = some c → c.isDigit = false) ∧
      (fraction? = none → (afterFraction (afterDigits cs)).head? ≠ some '.') := by
    have stops := head?_afterDigits cs
    generalize afterDigits cs = tail at stops
    unfold afterFraction fractionDigits
    split
    · rename_i rest
      refine ⟨some (digits rest), digits_isDigit rest, ?_, rfl, head?_afterDigits rest,
        fun none => ?_⟩
      · rw [Literal.pointText, List.cons_append, digits_append_afterDigits]
      · exact absurd none (Option.some_ne_none _)
    · rename_i no_point
      refine ⟨none, fun _ member => absurd member List.not_mem_nil, rfl,
        rfl, stops, fun _ first => ?_⟩
      obtain ⟨rest, rfl⟩ := List.head?_eq_some_iff.mp first
      exact no_point rest rfl
  have whole := digits_append_afterDigits cs
  simp only [scan?] at found
  split at found
  · cases found
  · rename_i some_digit
    have some_digit : digits cs ≠ [] ∨ fraction?.getD [] ≠ [] := by
      rw [← fraction_eq]
      simpa only [Bool.and_eq_true, List.isEmpty_iff,
        Decidable.not_and_iff_not_or_not] using some_digit
    split at found
    · rename_i power rest' taken
      cases found
      obtain ⟨p, power_eq, value_eq, stops⟩ := exists_powerText taken
      refine ⟨⟨digits cs, fraction?, some p, digits_isDigit cs, isDigit, some_digit⟩, ?_, ?_, stops,
        fun _ none => absurd none (Option.some_ne_none p),
          fun none => absurd none (Option.some_ne_none p)⟩
      · rw [Literal.text, Literal.powerText, List.append_assoc, List.append_assoc,
          ← power_eq, ← apart, whole]
      · rw [Literal.numeral, fraction_eq, ← value_eq]
        rfl
    · rename_i no_power
      cases found
      refine ⟨⟨digits cs, fraction?, none, digits_isDigit cs, isDigit, some_digit⟩, ?_, ?_, ends,
        fun none _ => point none, fun _ => no_power⟩
      · rw [Literal.text, Literal.powerText, List.append_nil, List.append_assoc, ← apart, whole]
      · rw [Literal.numeral, fraction_eq]
        rfl

end Numeral

/-- A literal that ends where what follows begins is the longest there. -/
theorem Literal.longest {l other : Literal} {rest : List Char} (ends : l.Ends rest)
    (begins : other.text <+: l.text ++ rest) : other.text.length ≤ l.text.length := by
  obtain ⟨after, same⟩ := begins
  have found := Numeral.scan?_append l ends
  rw [← same] at found
  have short := Numeral.scan?_text found
  have whole := congrArg List.length same
  rw [List.length_append, List.length_append] at whole
  omega

end CalcLength
