import CalcLength.Piece
import CalcLength.Proofs.Literal

namespace CalcLength

/-- The shape of a number in a text, whatever digits it has: digits and points,
then perhaps a power of ten. -/
def NumberShape (digit : Char → Bool) (cs : List Char) : Prop :=
  ∃ mantissa power : List Char, cs = mantissa ++ power ∧ mantissa ≠ [] ∧
    (∀ c ∈ mantissa, digit c = true ∨ c = '.') ∧
    (power = [] ∨ ∃ letter sign size, power = letter :: (sign ++ size) ∧
      (letter = 'e' ∨ letter = 'E') ∧
      (sign = [] ∨ sign = ['+'] ∨ sign = ['-']) ∧ size ≠ [] ∧ ∀ c ∈ size, digit c = true)

theorem exists_getLast? {α : Type} {list : List α} (some_text : list ≠ []) :
    ∃ last, list.getLast? = some last :=
  ⟨_, List.getLast?_eq_some_getLast some_text⟩

def IsSign (c : Char) : Prop :=
  c = '+' ∨ c = '-'

def IsPowerLetter (c : Char) : Prop :=
  c = 'e' ∨ c = 'E'

instance (c : Char) : Decidable (IsSign c) :=
  inferInstanceAs (Decidable (_ ∨ _))

instance (c : Char) : Decidable (IsPowerLetter c) :=
  inferInstanceAs (Decidable (_ ∨ _))

/-- Digits of any script, at least one. -/
def IsDigits (cs : List Char) : Prop :=
  cs ≠ [] ∧ ∀ c ∈ cs, Text.isDecimalDigit c = true

inductive IsFraction : List Char → Prop
  | point {digits : List Char} (isDigits : IsDigits digits) : IsFraction ('.' :: digits)

inductive IsPower : List Char → Prop
  | power {letter : Char} {sign digits : List Char} (isLetter : IsPowerLetter letter)
      (isSign : sign = [] ∨ sign = ['+'] ∨ sign = ['-']) (isDigits : IsDigits digits) :
      IsPower (letter :: (sign ++ digits))

/-- The numbers that a length may have: `digits [. digits]` or `. digits`,
perhaps with a power of ten. -/
inductive IsNumber : List Char → Prop
  | whole {whole fraction power : List Char} (isDigits : IsDigits whole)
      (isFraction : fraction = [] ∨ IsFraction fraction)
      (isPower : power = [] ∨ IsPower power) : IsNumber (whole ++ fraction ++ power)
  | point {fraction power : List Char} (isFraction : IsFraction fraction)
      (isPower : power = [] ∨ IsPower power) :
      IsNumber (fraction ++ power)

theorem Numeral.power?_eq_none {cs : List Char}
    (no_letter : ∀ c, cs.head? = some c → ¬IsPowerLetter c) : power? cs = none := by
  cases cs with
  | nil => rfl
  | cons c cs =>
    rw [power?, if_neg]
    simp only [Bool.and_eq_true, Bool.or_eq_true, decide_eq_true_eq]
    exact fun taken => no_letter c rfl taken.1

namespace NumberShape

variable {digit : Char → Bool} {cs : List Char}

theorem mono {other : Char → Bool} (shape : NumberShape digit cs)
    (wider : ∀ c, digit c = true → other c = true) : NumberShape other cs := by
  obtain ⟨mantissa, power, rfl, some_digit, plain, parts⟩ := shape
  refine ⟨mantissa, power, rfl, some_digit, fun c member => (plain c member).imp_left (wider c), ?_⟩
  rcases parts with rfl | ⟨letter, sign, size, rfl, isLetter, isSign, some_size, isDigit⟩
  · exact .inl rfl
  · exact .inr ⟨letter, sign, size, rfl, isLetter, isSign, some_size,
      fun c member => wider c (isDigit c member)⟩

theorem mem (shape : NumberShape digit cs) {c : Char} (member : c ∈ cs) :
    digit c = true ∨ c = '.' ∨ IsPowerLetter c ∨ IsSign c := by
  obtain ⟨mantissa, power, rfl, _, plain, parts⟩ := shape
  rcases List.mem_append.mp member with early | late
  · exact (plain c early).imp_right .inl
  · rcases parts with rfl | ⟨letter, sign, size, rfl, isLetter, isSign, _, isDigit⟩
    · cases late
    · rcases List.mem_cons.mp late with rfl | late
      · exact .inr (.inr (.inl isLetter))
      · rcases List.mem_append.mp late with late | late
        · refine .inr (.inr (.inr ?_))
          rcases isSign with rfl | rfl | rfl
          · cases late
          · exact .inl (List.mem_singleton.mp late)
          · exact .inr (List.mem_singleton.mp late)
        · exact .inl (isDigit c late)

theorem head? (shape : NumberShape digit cs) {c : Char} (first : cs.head? = some c) :
    digit c = true ∨ c = '.' := by
  obtain ⟨mantissa, power, rfl, some_digit, plain, _⟩ := shape
  cases mantissa with
  | nil => exact absurd rfl some_digit
  | cons d mantissa =>
    cases first
    exact plain _ (List.mem_cons_self ..)

/-- A number ends in a digit or in its point. -/
theorem getLast? (shape : NumberShape digit cs) {c : Char} (last : cs.getLast? = some c) :
    digit c = true ∨ c = '.' := by
  obtain ⟨mantissa, power, rfl, some_digit, plain, parts⟩ := shape
  rcases parts with rfl | ⟨letter, sign, size, rfl, _, _, some_size, isDigit⟩
  · rw [List.append_nil] at last
    exact plain c (List.mem_of_getLast? last)
  · obtain ⟨d, atEnd⟩ := exists_getLast? some_size
    rw [← List.cons_append, ← List.append_assoc, List.getLast?_append, atEnd] at last
    cases last
    exact .inl (isDigit _ (List.mem_of_getLast? atEnd))

theorem ne_nil (shape : NumberShape digit cs) : cs ≠ [] := by
  obtain ⟨mantissa, power, rfl, some_digit, _, _⟩ := shape
  exact List.append_ne_nil_of_left_ne_nil some_digit _

/-- A sign inside a number stands behind the letter of its power. -/
theorem letter_before_sign (shape : NumberShape digit cs)
    (no_digit : ∀ c, IsSign c → digit c = false) {front back : List Char} {sign : Char}
    (here : cs = front ++ sign :: back) (sign_isSign : IsSign sign) :
    ∃ before letter, front = before ++ [letter] ∧ IsPowerLetter letter := by
  obtain ⟨mantissa, power, rfl, _, plain, parts⟩ := shape
  have not_digit : digit sign ≠ true := by
    rw [no_digit sign sign_isSign]
    decide
  have not_plain : sign ∉ mantissa := by
    intro member
    rcases plain sign member with isDigit | rfl
    · exact not_digit isDigit
    · rcases sign_isSign with same | same <;> cases same
  rcases parts with rfl | ⟨letter, signs, size, rfl, isLetter, signs_eq, _, isDigit⟩
  · rw [List.append_nil] at here
    exact absurd (here ▸ List.mem_append_right _ (List.mem_cons_self ..)) not_plain
  · have not_letter : sign ≠ letter := by
      rintro rfl
      rcases sign_isSign with rfl | rfl <;> rcases isLetter with same | same <;> cases same
    rcases List.append_eq_append_iff.mp here with ⟨between, rfl, behind⟩ | ⟨between, rfl, behind⟩
    · cases between with
      | nil => exact absurd (List.cons.inj behind).1.symm not_letter
      | cons c between =>
        obtain ⟨same, after⟩ := List.cons.inj behind
        cases between with
        | nil => exact ⟨mantissa, c, rfl, same ▸ isLetter⟩
        | cons d between =>
          have member : sign ∈ size := by
            have inside (front : List Char) (same : size = front ++ sign :: back) :
                sign ∈ size := by
              rw [same]
              exact List.mem_append_right _ (List.mem_cons_self ..)
            rcases signs_eq with rfl | rfl | rfl
            · exact inside _ after
            · exact inside _ (List.cons.inj after).2
            · exact inside _ (List.cons.inj after).2
          exact absurd (isDigit sign member) not_digit
    · cases between with
      | nil => exact absurd (List.cons.inj behind).1 not_letter
      | cons c between =>
        obtain ⟨rfl, _⟩ := List.cons.inj behind
        exact absurd (List.mem_append_right _ (List.mem_cons_self ..)) not_plain

end NumberShape

theorem Literal.numberShape (l : Literal) : NumberShape Char.isDigit l.text := by
  refine ⟨l.whole ++ pointText l.fraction?, powerText l.power?, rfl, ?_, ?_, ?_⟩
  · intro none
    obtain ⟨no_whole, no_fraction⟩ := List.append_eq_nil_iff.mp none
    rcases l.some_digit with some_whole | some_fraction
    · exact some_whole no_whole
    · cases fraction : l.fraction? with
      | none => rw [fraction] at some_fraction; exact some_fraction rfl
      | some digits => rw [fraction] at no_fraction; cases no_fraction
  · intro c member
    rcases List.mem_append.mp member with whole | fraction
    · exact .inl (l.whole_isDigit c whole)
    · cases here : l.fraction? with
      | none => rw [here] at fraction; cases fraction
      | some digits =>
        rw [here] at fraction
        rcases List.mem_cons.mp fraction with rfl | digit
        · exact .inr rfl
        · exact .inl (l.fraction_isDigit c (by rw [here]; exact digit))
  · cases l.power? with
    | none => exact .inl rfl
    | some p =>
      exact .inr ⟨p.letter, p.sign, p.digits, rfl, p.letter_eq, p.sign_eq,
        p.digits_ne_nil, p.isDigit⟩

namespace Piece

theorem digits_isDecimalDigit (cs : List Char) : ∀ c ∈ digits cs, Text.isDecimalDigit c = true :=
  List.all_eq_true.mp (List.all_takeWhile ..)

theorem fraction_eq_nil_or (cs : List Char) : fraction cs = [] ∨ IsFraction (fraction cs) := by
  unfold fraction
  split
  · split
    · exact .inl rfl
    · rename_i some_digit
      rw [List.isEmpty_iff] at some_digit
      exact .inr (.point ⟨some_digit, digits_isDecimalDigit _⟩)
  · exact .inl rfl

theorem power_eq_nil_or (cs : List Char) : power cs = [] ∨ IsPower (power cs) := by
  cases cs with
  | nil => exact .inl rfl
  | cons letter rest =>
    simp only [power]
    split
    · rename_i taken
      simp only [Bool.and_eq_true, Bool.or_eq_true, decide_eq_true_eq, Bool.not_eq_true',
        List.isEmpty_eq_false_iff] at taken
      refine .inr (.power taken.1 ?_ ⟨taken.2, digits_isDecimalDigit _⟩)
      unfold sign
      split
      · exact .inr (.inl rfl)
      · exact .inr (.inr rfl)
      · exact .inl rfl
    · exact .inl rfl

/-- What is found at the head of a text is a number that a length may have. -/
theorem isNumber {cs : List Char} (some_number : number cs ≠ []) : IsNumber (number cs) := by
  unfold number at some_number ⊢
  simp only [] at some_number ⊢
  split at some_number
  · exact absurd rfl some_number
  · rename_i some_digit
    rw [if_neg some_digit]
    have isPower :=
      power_eq_nil_or (cs.drop (digits cs ++ fraction (cs.drop (digits cs).length)).length)
    have isFraction := fraction_eq_nil_or (cs.drop (digits cs).length)
    by_cases none : digits cs = []
    · rw [none] at some_digit isFraction isPower ⊢
      refine .point (isFraction.resolve_left fun no_fraction => some_digit ?_) isPower
      rw [no_fraction]
      rfl
    · exact .whole ⟨none, digits_isDecimalDigit cs⟩ isFraction isPower

end Piece

namespace IsNumber

variable {cs : List Char}

/-- A number is digits, a fraction and a power, one of the first two at least. -/
theorem exists_parts (isNumber : IsNumber cs) :
    ∃ whole fraction power, cs = whole ++ fraction ++ power ∧
      (∀ c ∈ whole, Text.isDecimalDigit c = true) ∧ (fraction = [] ∨ IsFraction fraction) ∧
      (power = [] ∨ IsPower power) ∧
      (whole ≠ [] ∨ fraction ≠ []) := by
  cases isNumber with
  | whole isDigits isFraction isPower =>
    exact ⟨_, _, _, rfl, isDigits.2, isFraction, isPower, .inl isDigits.1⟩
  | point isFraction isPower =>
    refine ⟨[], _, _, rfl, nofun, .inr isFraction, isPower, .inr ?_⟩
    cases isFraction
    exact List.cons_ne_nil _ _

theorem numberShape (isNumber : IsNumber cs) : NumberShape Text.isDecimalDigit cs := by
  obtain ⟨whole, fraction, power, rfl, isDigit, isFraction, isPower, some_digit⟩ :=
    isNumber.exists_parts
  refine ⟨whole ++ fraction, power, rfl, ?_, ?_, ?_⟩
  · rwa [ne_eq, List.append_eq_nil_iff, Decidable.not_and_iff_not_or_not]
  · intro c member
    rcases List.mem_append.mp member with inWhole | inFraction
    · exact .inl (isDigit c inWhole)
    · rcases isFraction with rfl | isFraction
      · cases inFraction
      · cases isFraction with
        | point isDigits =>
          rcases List.mem_cons.mp inFraction with rfl | digit
          · exact .inr rfl
          · exact .inl (isDigits.2 c digit)
  · rcases isPower with rfl | isPower
    · exact .inl rfl
    · cases isPower with
      | power isLetter isSign isDigits => exact .inr ⟨_, _, _, rfl, isLetter, isSign, isDigits⟩

end IsNumber

end CalcLength
