import CalcLength.Number
import CalcLength.Proofs.Binary64.Exact
import CalcLength.Proofs.Scanning

namespace CalcLength

namespace Decimal

theorem isDigit_toDigits (n : Nat) : ∀ c ∈ Nat.toDigits 10 n, c.isDigit = true :=
  fun _ member => Nat.isDigit_of_mem_toDigits (by decide) (by decide) member

/-- A decimal is written as a literal of the same value, never with a point at its end. -/
theorem exists_literal (d : Decimal) :
    ∃ l : Literal, l.text = d.positional ∧ l.value = d.nearest ∧ l.fraction? ≠ some [] := by
  unfold positional
  split
  · rename_i whole
    refine ⟨.ofDigits (Nat.toDigits 10 d.numerator) (isDigit_toDigits _) Nat.toDigits_ne_nil,
      ?_, ?_, nofun⟩
    · simp only [Literal.ofDigits, Literal.text, Literal.pointText, Literal.powerText,
        List.append_nil]
    · have den : d.denominator = 1 := by
        have none : (-d.exponent).toNat = 0 := by omega
        rw [denominator_eq, none, Nat.pow_zero]
      have num : (⟨d.numerator, 0⟩ : Decimal).numerator = d.numerator := Nat.mul_one _
      rw [Literal.value, Numeral.value, toFloat_eq_nearest]
      simp only [Literal.ofDigits, Literal.numeral, Numeral.decimal, Option.getD_none,
        Option.elim_none, List.append_nil, List.length_nil, Nat.ofDigitChars_ten_toDigits,
        Int.natCast_zero, Int.sub_zero]
      rw [nearest, nearest, num, den]
      rfl
  · rename_i fractional
    simp only []
    generalize places_eq : (-d.exponent).toNat = places
    generalize padded_eq : List.replicate
      (places + 1 - (Nat.toDigits 10 d.coefficient).length) '0' ++
      Nat.toDigits 10 d.coefficient = padded
    have long : places + 1 ≤ padded.length := by
      rw [← padded_eq, List.length_append, List.length_replicate]
      omega
    have digit : ∀ c ∈ padded, c.isDigit = true := by
      rw [← padded_eq]
      intro c member
      rcases List.mem_append.mp member with zero | digit
      · rw [List.eq_of_mem_replicate zero]
        decide
      · exact isDigit_toDigits _ c digit
    have value : Nat.ofDigitChars 10 padded 0 = d.coefficient := by
      rw [← padded_eq, Nat.ofDigitChars_append, Nat.ofDigitChars_replicate_zero, Nat.mul_zero,
        Nat.ofDigitChars_ten_toDigits]
    have some_digit : padded.take (padded.length - places) ≠ [] := by
      rw [← List.length_pos_iff, List.length_take]
      omega
    have some_place : padded.drop (padded.length - places) ≠ [] := by
      rw [← List.length_pos_iff, List.length_drop]
      omega
    refine ⟨⟨padded.take (padded.length - places), some (padded.drop (padded.length - places)),
      none, fun c member => digit c (List.mem_of_mem_take member),
      fun c member => digit c (List.mem_of_mem_drop member), .inl some_digit⟩, ?_, ?_,
      fun none => some_place (Option.some.inj none)⟩
    · simp only [Literal.text, Literal.pointText, Literal.powerText, List.append_nil]
    · have same : (-(places : Int)) = d.exponent := by omega
      have count : padded.length - (padded.length - places) = places := by omega
      rw [Literal.value, Numeral.value, toFloat_eq_nearest]
      simp only [Literal.numeral, Numeral.decimal, Option.getD_some, Option.elim_none,
        List.take_append_drop, value, List.length_drop, count, Int.zero_sub, same]

end Decimal

namespace Number

theorem minus : Token.ofChar? '-' = some (.operator .subtract) := rfl

theorem write_of_isFinite {x : Float} (finite : x.isFinite = true) :
    write x = if Binary64.isNegative x then '-' :: writeMagnitude x else writeMagnitude x := by
  rw [write, Binary64.not_isNaN_of_isFinite finite, Binary64.not_isInf_of_isFinite finite]
  rfl

/-- A finite number's magnitude is written as a literal that is read as it. -/
theorem exists_literal {x : Float} (finite : x.isFinite = true) :
    ∃ l : Literal, l.text = writeMagnitude x ∧ l.value = Binary64.magnitude x ∧
      l.fraction? ≠ some [] := by
  obtain ⟨l, text, value, no_bare_point⟩ := (Decimal.shortest x).exists_literal
  refine ⟨l, text, ?_, no_bare_point⟩
  have back := Decimal.readsBack_shortest finite
  simp only [Decimal.readsBack, decide_eq_true_eq] at back
  rw [value, Decimal.nearest, Binary64.nearest, back, Binary64.magnitude]

/-- What a finite number is read as: its magnitude, behind a minus sign if its sign is set. -/
def tokens (x : Float) : List Token :=
  if Binary64.isNegative x then [.operator .subtract, .number (Binary64.magnitude x)]
    else [.number (Binary64.magnitude x)]

/-- The text of a finite number is read as the number. -/
theorem scan_write {x : Float} (finite : x.isFinite = true) {rest : List Char}
    (ends : ∀ l : Literal, l.Ends rest) :
    Token.scan (write x ++ rest) = (Token.scan rest).map (tokens x ++ ·) := by
  obtain ⟨l, text, value, _⟩ := exists_literal finite
  have read := Token.scan_literal l (ends l)
  rw [text, value] at read
  rw [write_of_isFinite finite, tokens]
  split
  · rw [List.cons_append, Token.scan_ofChar minus, read]
    cases Token.scan rest <;> rfl
  · rw [read]
    cases Token.scan rest <;> rfl

/-- The text of an infinity or a NaN is no numeral: it has a letter where a token should start. -/
theorem scan_write_of_not_isFinite {x : Float} (infinite : x.isFinite = false) (rest : List Char) :
    Token.scan (write x ++ rest) = .error .illegalCharacter := by
  have letter {c : Char} (letter : c = 'N' ∨ c = 'i') (rest : List Char) :
      Token.scan (c :: rest) = .error .illegalCharacter := by
    refine Token.scan_illegal ?_ ?_ rest
    · rintro (blank | token)
      · rcases letter with rfl | rfl <;> cases blank
      · rcases letter with rfl | rfl <;> cases token
    · rintro (digit | point)
      · rcases letter with rfl | rfl <;> cases digit
      · rcases letter with rfl | rfl <;> cases point
  unfold write
  split
  · exact letter (.inl rfl) _
  · rename_i number
    rw [if_pos (Binary64.isInf_of_not_isFinite infinite (by simpa using number))]
    simp only []
    split
    · rw [List.cons_append, Token.scan_ofChar minus]
      exact congrArg (Except.map _) (letter (.inr rfl) _)
    · exact letter (.inr rfl) _

theorem isFinite_of_scan_write {x : Float} {rest : List Char} {tokens : List Token}
    (scanned : Token.scan (write x ++ rest) = .ok tokens) : x.isFinite = true := by
  cases finite : x.isFinite with
  | true => rfl
  | false =>
    rw [scan_write_of_not_isFinite finite] at scanned
    cases scanned

end Number

end CalcLength
