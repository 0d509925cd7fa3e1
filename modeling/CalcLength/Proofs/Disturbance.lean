import CalcLength.Proofs.Substitution

namespace CalcLength

/-- Whether a text ends in the beginning of a power, which digits that are
put behind it would complete. -/
def EndsInPower (cs : List Char) : Prop :=
  ∃ front letter sign, cs = front ++ [letter, sign] ∧ IsPowerLetter letter ∧ IsSign sign

/-- Whether a text ends in a letter that a power may begin with. -/
def EndsInLetter (cs : List Char) : Prop :=
  ∃ front letter, cs = front ++ [letter] ∧ IsPowerLetter letter

/-- The last character of a text that is no blank. -/
def lastInk? (cs : List Char) : Option Char :=
  cs.reverse.find? fun c => !Text.isBlank c

/-- Whether an operand may follow the text: it ends in an operator or an
opening parenthesis, blanks apart. -/
def Opens (cs : List Char) : Prop :=
  ∀ c, lastInk? cs = some c → c ∈ ['+', '-', '*', '/', '(']

namespace Calc

/-- Whether no length changes what the text around it means when it is replaced: none stands behind
the beginning of a power, and none whose value has a minus sign stands where that sign would join
it to an operand before it. -/
def Undisturbed (scale : Scale) (axis : Axis) (past : List Char) (pieces : List Piece) : Prop :=
  ∀ front number suffix back, pieces = front ++ .length number suffix :: back →
    ¬EndsInPower (past ++ front.flatMap Piece.text) ∧
      ∀ x, lengthPixels scale axis number suffix = .ok x → Binary64.isNegative x = true →
        Opens (past ++ front.flatMap Piece.text)

end Calc

theorem opens_nil : Opens [] :=
  nofun

theorem opens_concat_blank {cs : List Char} {c : Char} (blank : Text.isBlank c = true) :
    Opens (cs ++ [c]) ↔ Opens cs := by
  have same : lastInk? (cs ++ [c]) = lastInk? cs := by
    rw [lastInk?, List.reverse_append, List.reverse_singleton, List.singleton_append,
      List.find?_cons_of_neg, lastInk?]
    rw [blank]
    decide
  rw [Opens, same, Opens]

theorem opens_concat {cs : List Char} {c : Char} (ink : Text.isBlank c = false) :
    Opens (cs ++ [c]) ↔ c ∈ ['+', '-', '*', '/', '('] := by
  have last : lastInk? (cs ++ [c]) = some c := by
    rw [lastInk?, List.reverse_append, List.reverse_singleton, List.singleton_append,
      List.find?_cons_of_pos]
    rw [ink]
    rfl
  rw [Opens, last]
  exact ⟨fun opens => opens c rfl, fun member d same => Option.some.inj same ▸ member⟩

theorem endsInLetter_concat {cs : List Char} {c : Char} :
    EndsInLetter (cs ++ [c]) ↔ IsPowerLetter c := by
  constructor
  · rintro ⟨front, letter, same, isLetter⟩
    obtain rfl : c = letter := (List.cons.inj (List.append_inj_right' same rfl)).1
    exact isLetter
  · exact fun isLetter => ⟨cs, c, rfl, isLetter⟩

theorem endsInPower_concat {cs : List Char} {c : Char} :
    EndsInPower (cs ++ [c]) ↔ EndsInLetter cs ∧ IsSign c := by
  constructor
  · rintro ⟨front, letter, sign, same, isLetter, isSign⟩
    have split : front ++ [letter, sign] = front ++ [letter] ++ [sign] := by simp
    rw [split] at same
    obtain rfl : c = sign := (List.cons.inj (List.append_inj_right' same rfl)).1
    exact ⟨⟨front, letter, List.append_inj_left' same rfl, isLetter⟩, isSign⟩
  · rintro ⟨⟨front, letter, rfl, isLetter⟩, isSign⟩
    exact ⟨front, letter, c, by simp, isLetter, isSign⟩

theorem Token.BeginsNumeral.ends_operand {c : Char} (begins : BeginsNumeral c) :
    Text.isBlank c = false ∧ ¬IsPowerLetter c ∧ c ∉ ['+', '-', '*', '/', '('] := by
  have tokens : ∀ c ∈ ['+', '-', '*', '/', '('], (ofChar? c).isSome = true :=
    List.all_eq_true.mp rfl
  refine ⟨begins.not_isBlank, ?_, fun member => begins.not_delimits (.inr (tokens c member))⟩
  rintro (rfl | rfl) <;> rcases begins with digit | point
  · cases digit
  · exact absurd point (by decide)
  · cases digit
  · exact absurd point (by decide)

theorem Suffix.ends_operand {suffix : Suffix} {c : Char} (last : suffix.letters.getLast? = some c) :
    Text.isBlank c = false ∧ ¬IsPowerLetter c ∧ c ∉ ['+', '-', '*', '/', '('] := by
  have apart : ∀ c ∈ all.filterMap fun suffix => suffix.letters.getLast?,
      Text.isBlank c = false ∧ ¬IsPowerLetter c ∧ c ∉ ['+', '-', '*', '/', '('] :=
        List.all_iff_forall_prop.mp rfl
  exact apart c (List.mem_filterMap.mpr ⟨suffix, suffix.mem_all, last⟩)

/-- The last character of a word tells whether an operand may follow, and begins no power. -/
theorem Lexeme.exists_eq_concat (word : Lexeme Leaf) :
    ∃ front c, word.text = front ++ [c] ∧ Text.isBlank c = false ∧
      ¬IsPowerLetter c ∧ (c ∈ ['+', '-', '*', '/', '('] ↔ ¬word.EndsOperand) := by
  cases word with
  | operator op =>
    exact ⟨[], op.symbol, rfl, by cases op <;> decide, by cases op <;> decide,
      by cases op <;> simp [Operator.symbol, EndsOperand]⟩
  | opening => exact ⟨[], '(', rfl, by decide, by decide, by simp [EndsOperand]⟩
  | closing => exact ⟨[], ')', rfl, by decide, by decide, by simp [EndsOperand]⟩
  | operand leaf =>
    have some_text := (Lexeme.operand leaf).text_ne_nil
    have apart {c : Char} (last : (Lexeme.operand leaf).text.getLast? = some c) :
        Text.isBlank c = false ∧ ¬IsPowerLetter c ∧ c ∉ ['+', '-', '*', '/', '('] := by
      cases leaf with
      | literal l => exact (Token.BeginsNumeral.ends_operand (l.numberShape.getLast? last))
      | length l suffix =>
        obtain ⟨d, atEnd⟩ := exists_getLast? suffix.letters_ne_nil
        rw [text, Leaf.text, List.getLast?_append, atEnd] at last
        exact Suffix.ends_operand (atEnd.trans last)
    obtain ⟨ink, no_letter, closed⟩ := apart (List.getLast?_eq_some_getLast some_text)
    exact ⟨_, _, (List.dropLast_append_getLast some_text).symm, ink, no_letter,
      fun member => absurd member closed, fun other => absurd trivial other⟩

theorem Lexeme.opens_append_text {cs : List Char} (word : Lexeme Leaf) :
    Opens (cs ++ word.text) ↔ ¬word.EndsOperand := by
  obtain ⟨front, c, text, ink, _, ends⟩ := word.exists_eq_concat
  rw [text, ← List.append_assoc, opens_concat ink, ends]

namespace Calc

variable {scale : Scale} {axis : Axis} {past : List Char}

theorem undisturbed_nil : Undisturbed scale axis past [] := by
  intro front number suffix back same
  cases front <;> cases same

theorem undisturbed_plain {c : Char} {pieces : List Piece} :
    Undisturbed scale axis past (.plain c :: pieces) ↔
      Undisturbed scale axis (past ++ [c]) pieces := by
  have text (front : List Piece) : past ++ (Piece.plain c :: front).flatMap Piece.text =
      past ++ [c] ++ front.flatMap Piece.text := by
    rw [List.flatMap_cons, Piece.text, List.append_assoc]
  constructor
  · rintro undisturbed front number suffix back rfl
    rw [← text]
    exact undisturbed (.plain c :: front) number suffix back rfl
  · intro undisturbed front number suffix back same
    cases front with
    | nil => cases same
    | cons piece front =>
      obtain ⟨rfl, behind⟩ := List.cons.inj same
      rw [text]
      exact undisturbed front number suffix back behind

theorem undisturbed_map_plain {text : List Char} {pieces : List Piece} :
    Undisturbed scale axis past (text.map .plain ++ pieces) ↔
      Undisturbed scale axis (past ++ text) pieces := by
  induction text generalizing past with
  | nil => rw [List.map_nil, List.nil_append, List.append_nil]
  | cons c text ih =>
    rw [List.map_cons, List.cons_append, undisturbed_plain, ih, List.append_assoc,
      List.singleton_append]

theorem undisturbed_length {number : List Char} {suffix : Suffix} {pieces : List Piece} :
    Undisturbed scale axis past (.length number suffix :: pieces) ↔
      (¬EndsInPower past ∧ ∀ x, lengthPixels scale axis number suffix = .ok x →
        Binary64.isNegative x = true → Opens past) ∧
        Undisturbed scale axis (past ++ (number ++ suffix.letters)) pieces := by
  have text (front : List Piece) : past ++ (Piece.length number suffix :: front).flatMap
      Piece.text = past ++ (number ++ suffix.letters) ++ front.flatMap Piece.text := by
    simp only [List.flatMap_cons, Piece.text, List.append_assoc]
  constructor
  · intro undisturbed
    have here := undisturbed [] number suffix pieces rfl
    rw [List.flatMap_nil, List.append_nil] at here
    refine ⟨here, ?_⟩
    rintro front number' suffix' back rfl
    rw [← text]
    exact undisturbed (.length number suffix :: front) number' suffix' back rfl
  · rintro ⟨here, undisturbed⟩ front number' suffix' back same
    cases front with
    | nil =>
      cases same
      rw [List.flatMap_nil, List.append_nil]
      exact here
    | cons piece front =>
      obtain ⟨rfl, behind⟩ := List.cons.inj same
      rw [text]
      exact undisturbed front number' suffix' back behind

end Calc

theorem Lexeme.not_endsInLetter (word : Lexeme Leaf) (cs : List Char) :
    ¬EndsInLetter (cs ++ word.text) := by
  obtain ⟨front, c, text, _, no_letter, _⟩ := word.exists_eq_concat
  rw [text, ← List.append_assoc, endsInLetter_concat]
  exact no_letter

theorem Text.not_isSign_of_isBlank {c : Char} (blank : isBlank c = true) : ¬IsSign c := by
  rintro (rfl | rfl) <;> cases blank

/-- In a spelled text whose operands stand apart no length disturbs anything. -/
theorem Spells.undisturbed {scale : Scale} {axis : Axis} {cs past : List Char}
    {words : List (Lexeme Leaf)} (spells : Spells cs words)
    (unattached : Unattached (fun _ => True) words)
    (proper : ∀ leaf, .operand leaf ∈ words → leaf.Proper) (no_letter : ¬EndsInLetter past)
    (ready : ∀ leaf, words.head? = some (.operand leaf) → Opens past ∧ ¬EndsInPower past) :
    Calc.Undisturbed scale axis past (Piece.split cs) := by
  induction spells generalizing past with
  | nil =>
    rw [Piece.split]
    exact Calc.undisturbed_nil
  | @blank c _ _ isBlank _ ih =>
    have delimits : Delimits c := .inl isBlank
    rw [Piece.split_delimiter delimits, Calc.undisturbed_plain]
    refine ih unattached proper (endsInLetter_concat.not.mpr delimits.not_in_number.2.2)
      fun leaf first => ?_
    exact ⟨(opens_concat_blank isBlank).mpr (ready leaf first).1,
      fun ends => Text.not_isSign_of_isBlank isBlank (endsInPower_concat.mp ends).2⟩
  | @word cs words word spells ih =>
    have rest (ready : ∀ leaf, words.head? = some (.operand leaf) →
        Opens (past ++ word.text) ∧ ¬EndsInPower (past ++ word.text)) :
        Calc.Undisturbed scale axis (past ++ word.text) (Piece.split cs) :=
      ih unattached.tail (fun leaf member => proper leaf (List.mem_cons_of_mem _ member))
        (word.not_endsInLetter past) ready
    have next (leaf : Leaf) (first : words.head? = some (.operand leaf)) : ¬word.EndsOperand :=
      (List.isChain_cons.mp unattached).1 _ first leaf rfl trivial
    have single (other : ¬word.IsOperand) :
        Calc.Undisturbed scale axis past (Piece.split (word.text ++ cs)) := by
      obtain ⟨c, more, text, of_other, _⟩ := word.exists_eq_cons
      obtain ⟨rfl, token⟩ := of_other other
      have delimits : Delimits c := .inr token
      rw [text, List.singleton_append, Piece.split_delimiter delimits,
        Calc.undisturbed_plain, ← text]
      refine rest fun leaf first => ⟨word.opens_append_text.mpr (next leaf first), ?_⟩
      rw [text, endsInPower_concat]
      exact fun ends => no_letter ends.1
    cases word with
    | operand leaf =>
      have delimited := spells.delimited_of_unattached unattached
      have rest := rest fun leaf first => absurd trivial (next leaf first)
      cases leaf with
      | literal l =>
        rw [Lexeme.text, Leaf.text, Piece.split_literal l delimited, Calc.undisturbed_map_plain]
        exact rest
      | length l suffix =>
        have ready := ready _ rfl
        have found := Piece.scan?_length (proper _ (List.mem_cons_self ..) : l.Proper) suffix cs
        rw [Lexeme.text, Leaf.text, List.append_assoc, Piece.split_length found,
          Calc.undisturbed_length]
        exact ⟨⟨ready.2, fun _ _ _ => ready.1⟩, rest⟩
    | operator => exact single id
    | opening => exact single id
    | closing => exact single id

end CalcLength
