import CalcLength.Proofs.Completeness
import CalcLength.Proofs.Replacement

namespace CalcLength

/-- Behind a point a literal that has none of the digits there goes on with its power. -/
theorem Literal.text_of_not_proper {l : Literal} (pointed : ¬l.Proper) :
    l.text = l.whole ++ '.' :: powerText l.power? := by
  rw [Literal.text, Decidable.not_not.mp pointed, pointText, List.append_assoc]
  rfl

/-- The digits of a power, as a number of their own. -/
def PowerText.size (p : PowerText) : Literal :=
  .ofDigits p.digits p.isDigit p.digits_ne_nil

theorem PowerText.text_size (p : PowerText) : p.size.text = p.digits := by
  simp [size, Literal.ofDigits, Literal.text, Literal.pointText, Literal.powerText]

namespace Piece

/-- Characters that belong to no number are pieces of their own. -/
theorem split_of_no_number {cs : List Char}
    (other : ∀ c ∈ cs, Text.isDecimalDigit c = false ∧ c ≠ '.') : split cs = cs.map plain := by
  induction cs with
  | nil => rw [split]; rfl
  | cons c cs ih =>
    obtain ⟨no_digit, no_point⟩ := other c List.mem_cons_self
    rw [split_plain (scan?_eq_none_of_head no_digit no_point),
      ih fun d later => other d (List.mem_cons_of_mem c later)]
    rfl

/-- Digits belong to no length if a point without digits follows them. -/
theorem scan?_eq_none_of_point {whole tail : List Char} (isDigit : ∀ c ∈ whole, c.isDigit = true)
    (ends : ∀ c, tail.head? = some c → Text.isDecimalDigit c = false) :
    scan? (whole ++ '.' :: tail) = none := by
  have no_suffix : Suffix.scan? ('.' :: tail) = none := by
    refine Option.eq_none_iff_forall_ne_some.mpr fun ⟨suffix, rest⟩ found => ?_
    obtain ⟨c, more, letters, _⟩ := suffix.letters_eq_cons
    have text := Suffix.scan?_eq_some found
    rw [letters] at text
    have first : '.' ∈ suffix.letters := by
      rw [letters, (List.cons.inj text).1]
      exact List.mem_cons_self
    exact (Suffix.not_in_number_of_mem first).2.1 rfl
  simp only [scan?, number_point isDigit ends, List.drop_left, no_suffix, Option.map_none, ite_self]

theorem split_point {whole tail : List Char} (isDigit : ∀ c ∈ whole, c.isDigit = true)
    (ends : ∀ c, tail.head? = some c → Text.isDecimalDigit c = false) :
    split (whole ++ '.' :: tail) = whole.map plain ++ plain '.' :: split tail := by
  induction whole with
  | nil => exact split_plain (scan?_eq_none_of_point isDigit ends)
  | cons c whole ih =>
    have none := scan?_eq_none_of_point isDigit ends
    rw [List.cons_append] at none ⊢
    rw [split_plain none, ih fun d later => isDigit d (List.mem_cons_of_mem c later)]
    rfl

/-- Behind a point without digits the letter of a power and its sign are pieces of their own. -/
theorem split_power {whole : List Char} (isDigit : ∀ c ∈ whole, c.isDigit = true) (p : PowerText)
    (rest : List Char) :
    split (whole ++ '.' :: p.letter :: p.sign ++ rest) =
      (whole ++ '.' :: p.letter :: p.sign).map plain ++ split rest := by
  have letter : Text.isDecimalDigit p.letter = false ∧ p.letter ≠ '.' := by
    rcases p.letter_eq with same | same <;> rw [same] <;> decide
  have sign : split (p.sign ++ rest) = p.sign.map plain ++ split rest := by
    rcases p.sign_eq with same | same | same
    · rw [same]
      rfl
    · rw [same]
      exact split_delimiter (.inr rfl) rest
    · rw [same]
      exact split_delimiter (.inr rfl) rest
  rw [List.append_assoc, List.cons_append, List.cons_append,
    split_point isDigit (fun c first => by cases first; exact letter.1),
      split_plain (scan?_eq_none_of_head letter.1 letter.2), sign]
  simp

end Piece

/-- The letters of what is no numeral, an infinity or a NaN. -/
def Number.alphabet : List Char :=
  ['N', 'a', 'i', 'n', 'f', '-']

/-- What the text of a number looks like. -/
theorem Number.write_cases (x : Float) :
    (∃ l : Literal, write x = l.text ∨ write x = '-' :: l.text) ∨ ∀ c ∈ write x, c ∈ alphabet := by
  cases finite : x.isFinite with
  | true =>
    obtain ⟨l, text, _⟩ := exists_literal finite
    rw [write_of_isFinite finite, ← text]
    split
    · exact .inl ⟨l, .inr rfl⟩
    · exact .inl ⟨l, .inl rfl⟩
  | false =>
    right
    unfold write
    split
    · simp [alphabet]
    · rename_i number
      rw [if_pos (Binary64.isInf_of_not_isFinite finite (by simpa using number))]
      simp only []
      split <;> simp [alphabet]

theorem Number.split_write (x : Float) : Piece.split (write x) = (write x).map .plain := by
  have literal (l : Literal) : Piece.split l.text = l.text.map .plain := by
    have split := Piece.split_literal l delimited_nil
    rw [List.append_nil, Piece.split, List.append_nil] at split
    exact split
  rcases write_cases x with ⟨l, text | text⟩ | word
  · rw [text, literal]
  · rw [text, Piece.split_delimiter (.inr rfl), literal]
    rfl
  · have other : ∀ c ∈ alphabet, Text.isDecimalDigit c = false ∧ c ≠ '.' :=
      List.all_iff_forall_prop.mp rfl
    exact Piece.split_of_no_number fun c member => other c (word c member)

theorem Number.not_isSpace_write {x : Float} {c : Char} (member : c ∈ write x) :
    Text.isSpace c = false := by
  rcases write_cases x with ⟨l, text | text⟩ | word
  · exact l.not_isSpace (text ▸ member)
  · rw [text] at member
    rcases List.mem_cons.mp member with rfl | member
    · decide
    · exact l.not_isSpace member
  · have visible : ∀ c ∈ alphabet, Text.isSpace c = false := List.all_iff_forall_prop.mp rfl
    exact visible c (word c member)

namespace Calc

variable {scale : Scale} {axis : Axis}

/-- Nothing is taken off a text without white space that begins as a literal does. -/
theorem body_eq_self {l : Literal} {front tail rest : List Char} (begins : l.text = front ++ tail)
    (some_front : front ≠ []) (visible : ∀ c ∈ rest, Text.isSpace c = false) :
    body (front ++ rest) = front ++ rest := by
  obtain ⟨c, more, text, starts⟩ := Token.exists_eq_cons_of_literal l
  obtain ⟨d, front, rfl⟩ := List.exists_cons_of_ne_nil some_front
  have visible : ∀ e ∈ d :: front ++ rest, Text.isSpace e = false := List.forall_mem_append.mpr
    ⟨fun e member => l.not_isSpace (begins ▸ List.mem_append_left tail member), visible⟩
  rw [text] at begins
  obtain ⟨rfl, _⟩ := List.cons.inj begins
  have nothing : ∀ d ∈ ([] : List Char), Text.isSpace d = true := nofun
  have trimmed := Text.trim_append nothing nothing
    (fun d first => visible d (List.mem_of_head? first))
    (fun d last => visible d (List.mem_of_getLast? last)) (List.cons_ne_nil c (front ++ rest))
  rw [List.nil_append, List.append_nil] at trimmed
  rw [body, trimmed, Text.dropFirst, if_neg]
  rw [List.isPrefixOf_iff_prefix]
  rintro ⟨more, word⟩
  rw [← (List.cons.inj word).1] at starts
  rcases starts with digit | point
  · cases digit
  · cases point

theorem body_suffixed (l : Literal) (suffix : Suffix) :
    body (l.text ++ suffix.letters) = l.text ++ suffix.letters :=
  body_eq_self (List.append_nil _).symm l.numberShape.ne_nil fun c member =>
    Suffix.not_isSpace_of_mem_alphabet c (Suffix.mem_alphabet member)

/-- A number or a length that stands alone comes to its own value. -/
theorem pixels_of_leaf {leaf : Leaf} (measured : leaf.Measured scale axis (Leaf.value scale axis))
    (finite : (leaf.value scale axis).isFinite = true) :
    pixels scale axis leaf.text = .ok (leaf.value scale axis) := by
  let s : Sentence Leaf := .single (.single (.unsigned (.operand leaf)))
  have spells : Spells leaf.text s.words := by
    rw [← List.append_nil leaf.text]
    exact .word (.operand leaf) .nil
  have shallow : s.nesting (fun leaf => if leaf.negative (Leaf.value scale axis) then 1 else 0) ≤
      Formula.maxNesting := by
    show (if leaf.negative (Leaf.value scale axis) then 1 else 0) ≤ Formula.maxNesting
    split <;> decide
  have single : ∀ other ∈ s.operands, other.Measured scale axis (Leaf.value scale axis) := by
    intro other member
    rw [List.mem_singleton.mp member]
    exact measured
  exact pixels_of_spells s spells single shallow (.inl rfl) finite

/-- Where there is no length all characters are kept. -/
theorem inPixels_plain (text : List Char) (before : Option Char) :
    inPixels scale axis before (text.map .plain) = .ok text := by
  have replaced : inPixels scale axis before (text.map .plain ++ []) = _ :=
    inPixels_map_plain text before []
  rw [List.append_nil] at replaced
  rw [replaced, inPixels]
  exact congrArg Except.ok (List.append_nil text)

variable {l : Literal} {suffix : Suffix}

theorem pixels_of_no_power (pointed : ¬l.Proper) (none : l.power? = none) :
    pixels scale axis (l.text ++ suffix.letters) = .error (.malformed .illegalCharacter) := by
  have letters : ∀ c ∈ suffix.letters, Text.isDecimalDigit c = false ∧ c ≠ '.' := fun c member =>
    ⟨(Suffix.not_in_number_of_mem member).1, (Suffix.not_in_number_of_mem member).2.1⟩
  have text : l.text ++ suffix.letters = l.whole ++ '.' :: suffix.letters := by
    rw [Literal.text_of_not_proper pointed, none, List.append_assoc]
    rfl
  have split : Piece.split (l.text ++ suffix.letters) = (l.text ++ suffix.letters).map .plain := by
    rw [text, Piece.split_point l.whole_isDigit fun c first =>
      (letters c (List.mem_of_head? first)).1, Piece.split_of_no_number letters]
    simp
  have scanned : Token.scan (l.text ++ suffix.letters) = .error .illegalCharacter := by
    obtain ⟨c, more, first, _⟩ := suffix.letters_eq_cons
    have member : c ∈ suffix.letters := first ▸ List.mem_cons_self
    have ends := suffix.ends [] l
    rw [List.append_nil] at ends
    have illegal : ¬Token.BeginsNumeral c :=
      Token.not_beginsNumeral (letters c member).1 (letters c member).2
    rw [Token.scan_literal l ends, first,
      Token.scan_illegal (fun delimits => delimits.not_mem_letters suffix member) illegal]
    rfl
  simp only [pixels, body_suffixed, value, split, inPixels_plain, Formula.read, scanned]
  rfl

/-- A length at the end is replaced by its number of pixels. -/
theorem value_of_last_length {cs front number : List Char} {x : Float}
    (pieces : Piece.split cs = front.map .plain ++ [.length number suffix])
    (pieces' : Piece.split (front ++ Number.write x) = front.map .plain ++
      Piece.split (Number.write x))
    (apart : standsApart front.getLast? none = true)
    (measured : lengthPixels scale axis number suffix = .ok x) :
    value scale axis cs = value scale axis (front ++ Number.write x) := by
  have replaced : inPixels scale axis none (Piece.split cs) = .ok (front ++ Number.write x) := by
    rw [pieces, inPixels_map_plain, Option.or_none, inPixels, Piece.first?, if_pos apart,
      measured, inPixels]
    exact congrArg (fun text => Except.ok (front ++ text)) (List.append_nil _)
  have kept : inPixels scale axis none (Piece.split (front ++ Number.write x)) =
      .ok (front ++ Number.write x) := by
    rw [pieces', Number.split_write, ← List.map_append, inPixels_plain]
  rw [value, value, replaced, kept]

section Power

variable {p : PowerText} (pointed : ¬l.Proper) (power : l.power? = some p)
include pointed power

theorem text_of_power : l.text = l.whole ++ '.' :: p.letter :: p.sign ++ p.digits := by
  rw [Literal.text_of_not_proper pointed, power, Literal.powerText, PowerText.text]
  simp

theorem split_of_power : Piece.split (l.text ++ suffix.letters) =
    (l.whole ++ '.' :: p.letter :: p.sign).map .plain ++ [.length p.digits suffix] := by
  have found := Piece.scan?_length (l := p.size) nofun suffix []
  rw [PowerText.text_size, List.append_nil] at found
  rw [text_of_power pointed power, List.append_assoc, Piece.split_power l.whole_isDigit,
    Piece.split_length found, Piece.split]

/-- A power without a sign is taken for the number of a length, which must not touch the letter. -/
theorem pixels_of_unsigned_power (unsigned : p.sign = []) :
    pixels scale axis (l.text ++ suffix.letters) = .error (.malformed .unexpectedToken) := by
  have joined : joins p.letter = true := by
    rcases p.letter_eq with same | same <;> rw [same] <;> decide
  have refused : inPixels scale axis none (Piece.split (l.text ++ suffix.letters)) =
      .error (.malformed .unexpectedToken) := by
    rw [split_of_power pointed power, unsigned, inPixels_map_plain, inPixels,
      standsApart_eq_false (.inl ?_) joined]
    · rfl
    · simp
  simp only [pixels, body_suffixed, value, refused]

/-- Behind its sign a power is taken for the number of a length, too, and is
replaced by that number of pixels. -/
theorem pixels_of_signed_power (signed : p.sign ≠ []) {ratio : Float}
    (known : scale.ratio axis suffix = .ok ratio) :
    pixels scale axis (l.text ++ suffix.letters) =
      pixels scale axis
        (l.whole ++ '.' :: p.letter :: p.sign ++ Number.write (p.size.value * ratio)) := by
  have measured : lengthPixels scale axis p.digits suffix = .ok (p.size.value * ratio) := by
    rw [← PowerText.text_size, lengthPixels_text, Leaf.pixels, known]
    rfl
  have apart : standsApart (l.whole ++ '.' :: p.letter :: p.sign).getLast? none = true := by
    rw [List.append_cons, List.append_cons, List.getLast?_append]
    rcases p.sign_eq with same | same | same
    · exact absurd same signed
    · rw [same]
      rfl
    · rw [same]
      rfl
  have some_front : l.whole ++ '.' :: p.letter :: p.sign ≠ [] :=
    List.append_ne_nil_of_right_ne_nil _ (List.cons_ne_nil _ _)
  have evaluated := value_of_last_length (split_of_power pointed power)
    (Piece.split_power l.whole_isDigit p _) apart measured
  rw [pixels, pixels, body_suffixed, body_eq_self (text_of_power pointed power) some_front fun _ =>
    Number.not_isSpace_write, evaluated]

end Power

variable (l) in
/-- Every literal that stands alone comes to its value, and to the value in pixels with a suffix
behind it, unless there is no digit behind its point. Then what it comes to with the suffix is
not its own: only the digits of its power are taken for a length, if that has a sign, and
nothing is accepted otherwise. -/
theorem pixels_suffixed {ratio : Float} (known : scale.ratio axis suffix = .ok ratio)
    (finite : l.value.isFinite = true) (finite' : (l.value * ratio).isFinite = true) :
    pixels scale axis l.text = .ok l.value ∧
    (l.Proper → pixels scale axis (l.text ++ suffix.letters) = .ok (l.value * ratio)) ∧
    (¬l.Proper →
      (l.power? = none →
        pixels scale axis (l.text ++ suffix.letters) = .error (.malformed .illegalCharacter)) ∧
      ∀ p, l.power? = some p →
        (p.sign = [] →
          pixels scale axis (l.text ++ suffix.letters) = .error (.malformed .unexpectedToken)) ∧
        (p.sign ≠ [] → pixels scale axis (l.text ++ suffix.letters) =
          pixels scale axis
            (l.whole ++ '.' :: p.letter :: p.sign ++ Number.write (p.size.value * ratio)))) := by
  have alone : (Leaf.literal l).Measured scale axis (Leaf.value scale axis) :=
    ⟨trivial, rfl, False.elim⟩
  have product : (Leaf.length l suffix).pixels scale axis = .ok (l.value * ratio) := by
    rw [Leaf.pixels, known]
    rfl
  have value := Leaf.value_eq product
  refine ⟨pixels_of_leaf alone finite, fun proper => ?_,
    fun pointed => ⟨pixels_of_no_power pointed, fun p power =>
    ⟨pixels_of_unsigned_power pointed power,
      fun signed => pixels_of_signed_power pointed power signed known⟩⟩⟩
  have carried : (Leaf.length l suffix).Measured scale axis (Leaf.value scale axis) :=
    ⟨proper, by rw [value, product], fun _ => by rw [value, finite']⟩
  have evaluated := pixels_of_leaf carried (by rw [value, finite'])
  rwa [value] at evaluated

theorem pixels_suffixed_of_em :
    let scale := (Scale.ofPercents 1 1).set .em 16
    pixels scale .horizontal ".5e1em".toList = .ok 80 ∧
      pixels scale .horizontal "5.e-3".toList = .ok 0.005 ∧
      pixels scale .horizontal "5.e-3em".toList = pixels scale .horizontal "5.e-48".toList := by
  intro scale
  let half : Literal := ⟨[], some ['5'],
    some ⟨'e', [], ['1'], .inl rfl, .inl rfl, List.cons_ne_nil _ _, List.all_eq_true.mp rfl⟩,
    nofun, List.all_eq_true.mp rfl, .inr (List.cons_ne_nil _ _)⟩
  let p : PowerText :=
    ⟨'e', ['-'], ['3'], .inl rfl, .inr (.inr rfl), List.cons_ne_nil _ _, List.all_eq_true.mp rfl⟩
  let pointed : Literal :=
    ⟨['5'], some [], some p, List.all_eq_true.mp rfl, nofun, .inl (List.cons_ne_nil _ _)⟩
  have known : scale.ratio .horizontal (.relative .em) = .ok 16 := rfl
  obtain ⟨_, carried, _⟩ := pixels_suffixed half known (by decide +kernel) (by decide +kernel)
  obtain ⟨alone, _, lost⟩ := pixels_suffixed pointed known (by decide +kernel) (by decide +kernel)
  have signed := ((lost fun proper => proper rfl).2 p rfl).2 (List.cons_ne_nil _ _)
  have whole : Number.write (p.size.value * 16) = ['4', '8'] := by decide +kernel
  rw [whole] at signed
  exact ⟨(carried nofun).trans (by decide +kernel), alone.trans (by decide +kernel), signed⟩

/-- Two numerals that stand alone for five and five thousandths. With a suffix behind it the one is
refused, and the other comes to the wrong number. -/
theorem pointed_literals_lost :
    let scale := (Scale.ofPercents 1 1).set .em 16
    scale.ratio .horizontal (.relative .em) = .ok 16 ∧
      (Numeral.read? "5.".toList = some 5 ∧
        pixels scale .horizontal "5.em".toList = .error (.malformed .illegalCharacter)) ∧
      Numeral.read? "5.e-3".toList = some 0.005 ∧ (0.005 * 16 : Float) = 0.08 ∧
      pixels scale .horizontal "5.e-3em".toList = .ok 5e-48 ∧ (5e-48 : Float) ≠ 0.08 := by
  decide +kernel

end Calc

end CalcLength
