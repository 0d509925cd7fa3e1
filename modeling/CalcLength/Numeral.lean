import CalcLength.Decimal.Basic

namespace CalcLength

/-- A numeral taken apart: the digits before and after its point, and its power of ten. -/
structure Numeral where
  whole : List Char
  fraction : List Char
  power : Int
deriving DecidableEq, Repr

namespace Numeral

/-- The decimal that the numeral stands for. -/
def decimal (n : Numeral) : Decimal where
  coefficient := Nat.ofDigitChars 10 (n.whole ++ n.fraction) 0
  exponent := n.power - n.fraction.length

/-- The double nearest to the numeral; beyond the largest one that is infinity. -/
def value (n : Numeral) : Float :=
  n.decimal.toFloat

def digits (cs : List Char) : List Char :=
  cs.takeWhile Char.isDigit

def afterDigits (cs : List Char) : List Char :=
  cs.dropWhile Char.isDigit

def fractionDigits : List Char → List Char
  | '.' :: rest => digits rest
  | _ => []

def afterFraction : List Char → List Char
  | '.' :: rest => afterDigits rest
  | cs => cs

def afterSign : List Char → List Char
  | '-' :: rest => rest
  | '+' :: rest => rest
  | cs => cs

/-- A whole number with a sign that may be left out. -/
def signedWhole (cs : List Char) : Int :=
  let size : Int := Nat.ofDigitChars 10 (digits (afterSign cs)) 0
  if cs.head? = some '-' then -size else size

/-- The power of ten at the head of the text and what follows it. Without a digit after the letter
and its sign there is no power, and the letter is left to whatever reads on. -/
def power? : List Char → Option (Int × List Char)
  | [] => none
  | letter :: cs =>
    if (letter = 'e' || letter = 'E') && !(digits (afterSign cs)).isEmpty then
      some (signedWhole cs, afterDigits (afterSign cs))
    else none

/-- The longest numeral at the head of the text, and the rest of the text. A numeral has a digit
before its point or after it. -/
def scan? (cs : List Char) : Option (Numeral × List Char) :=
  let whole := digits cs
  let fraction := fractionDigits (afterDigits cs)
  let rest := afterFraction (afterDigits cs)
  if whole.isEmpty && fraction.isEmpty then none
  else
    match power? rest with
    | some (power, rest) => some (⟨whole, fraction, power⟩, rest)
    | none => some (⟨whole, fraction, 0⟩, rest)

/-- The value of a text that is a numeral from end to end. -/
def read? (cs : List Char) : Option Float :=
  match scan? cs with
  | some (n, []) => some n.value
  | _ => none

theorem digits_append_afterDigits (cs : List Char) : digits cs ++ afterDigits cs = cs :=
  List.takeWhile_append_dropWhile

theorem afterDigits_length_le (cs : List Char) : (afterDigits cs).length ≤ cs.length :=
  (List.dropWhile_suffix _).length_le

theorem afterDigits_length_lt {cs : List Char} (some_digit : digits cs ≠ []) :
    (afterDigits cs).length < cs.length := by
  have whole := congrArg List.length (digits_append_afterDigits cs)
  have positive := List.length_pos_iff.mpr some_digit
  rw [List.length_append] at whole
  omega

theorem afterSign_length_le (cs : List Char) : (afterSign cs).length ≤ cs.length := by
  unfold afterSign
  split <;> simp

theorem afterFraction_length_le (cs : List Char) : (afterFraction cs).length ≤ cs.length := by
  unfold afterFraction
  split
  · exact Nat.le_trans (afterDigits_length_le _) (Nat.le_succ _)
  · exact Nat.le_refl _

theorem afterFraction_length_lt {cs : List Char} (some_digit : fractionDigits cs ≠ []) :
    (afterFraction cs).length < cs.length := by
  unfold fractionDigits at some_digit
  unfold afterFraction
  split at some_digit
  · exact Nat.lt_succ_of_le (afterDigits_length_le _)
  · exact absurd rfl some_digit

theorem power?_length_lt {cs rest : List Char} {power : Int}
    (found : power? cs = some (power, rest)) : rest.length < cs.length := by
  cases cs with
  | nil => cases found
  | cons letter cs =>
    simp only [power?, Option.ite_none_right_eq_some, Option.some.injEq, Prod.mk.injEq] at found
    obtain ⟨_, _, rfl⟩ := found
    exact Nat.lt_succ_of_le (Nat.le_trans (afterDigits_length_le _) (afterSign_length_le _))

/-- Every numeral takes at least one character. -/
theorem scan?_length_lt {cs rest : List Char} {n : Numeral} (found : scan? cs = some (n, rest)) :
    rest.length < cs.length := by
  have shorter : digits cs ≠ [] ∨ fractionDigits (afterDigits cs) ≠ [] →
      (afterFraction (afterDigits cs)).length < cs.length := by
    rintro (whole | fraction)
    · exact Nat.lt_of_le_of_lt (afterFraction_length_le _) (afterDigits_length_lt whole)
    · exact Nat.lt_of_lt_of_le (afterFraction_length_lt fraction) (afterDigits_length_le _)
  simp only [scan?] at found
  split at found
  · cases found
  · rename_i some_digit
    have shorter := shorter (by
      simpa only [Bool.and_eq_true, List.isEmpty_iff, Decidable.not_and_iff_not_or_not]
        using some_digit)
    split at found
    · rename_i taken
      cases found
      exact Nat.lt_trans (power?_length_lt taken) shorter
    · cases found
      exact shorter

end Numeral

end CalcLength
