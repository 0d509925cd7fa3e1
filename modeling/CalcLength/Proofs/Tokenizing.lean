import CalcLength.Proofs.Scanning
import CalcLength.Proofs.Spelling

namespace CalcLength

namespace Lexeme

/-- The same word with another operand. -/
def map {α β : Type} (f : α → β) : Lexeme α → Lexeme β
  | operator op => operator op
  | opening => opening
  | closing => closing
  | operand a => operand (f a)

/-- The text of a word of plain arithmetic, which has no lengths. -/
def plainText (word : Lexeme Literal) : List Char :=
  (word.map Leaf.literal).text

def plainToken (word : Lexeme Literal) : Token :=
  (word.map Literal.value).token

/-- Whether no longer word stands where this one does. -/
def IsLongest (word : Lexeme Literal) (rest : List Char) : Prop :=
  ∀ other : Lexeme Literal, other.plainText <+: word.plainText ++ rest →
    other.plainText.length ≤ word.plainText.length

theorem isLongest_of_not_isOperand {word : Lexeme Literal} (no_operand : ¬word.IsOperand)
    (rest : List Char) : word.IsLongest rest := by
  have same : ¬(word.map Leaf.literal).IsOperand := by
    cases word with
    | operand => exact absurd trivial no_operand
    | operator => exact id
    | opening => exact id
    | closing => exact id
  exact fun other begins => longest_of_not_isOperand same begins

theorem exists_eq_singleton {word : Lexeme Literal} (no_operand : ¬word.IsOperand) :
    ∃ c, word.plainText = [c] ∧ (Token.ofChar? c).isSome = true := by
  cases word with
  | operator op => exact ⟨op.symbol, rfl, by rw [Token.ofChar?_symbol]; rfl⟩
  | opening => exact ⟨'(', rfl, rfl⟩
  | closing => exact ⟨')', rfl, rfl⟩
  | operand => exact absurd trivial no_operand

theorem length_plainText_pos (word : Lexeme Literal) : 0 < word.plainText.length :=
  (word.map Leaf.literal).length_text_pos

/-- The characters that are tokens are words. -/
theorem exists_eq_of_ofChar? {c : Char} {token : Token} (here : Token.ofChar? c = some token) :
    ∃ word : Lexeme Literal, word.plainText = [c] ∧ word.plainToken = token ∧ ¬word.IsOperand := by
  rcases Token.eq_of_ofChar? here with ⟨op, rfl, rfl⟩ | ⟨rfl, rfl⟩ | ⟨rfl, rfl⟩
  · exact ⟨.operator op, rfl, rfl, id⟩
  · exact ⟨.opening, rfl, rfl, id⟩
  · exact ⟨.closing, rfl, rfl, id⟩

end Lexeme

/-- A literal that ends where what follows begins is the longest word there. -/
theorem Literal.Ends.isLongest {l : Literal} {rest : List Char} (ends : l.Ends rest) :
    (Lexeme.operand l).IsLongest rest := by
  intro other begins
  have some_text : 0 < l.text.length := (Lexeme.operand l).length_plainText_pos
  cases other with
  | operand l' => exact Literal.longest ends begins
  | operator => exact some_text
  | opening => exact some_text
  | closing => exact some_text

namespace Numeral

/-- Where a literal stands some numeral is scanned. -/
theorem scan?_ne_none {l : Literal} {cs : List Char} (begins : l.text <+: cs) :
    scan? cs ≠ none := by
  obtain ⟨rest, rfl⟩ := begins
  have some_digit : ¬((digits (l.text ++ rest)).isEmpty &&
      (fractionDigits (afterDigits (l.text ++ rest))).isEmpty) = true := by
    simp only [Bool.and_eq_true, List.isEmpty_iff, not_and]
    rw [Literal.text, List.append_assoc, List.append_assoc, digits_append l.whole_isDigit,
      afterDigits_append l.whole_isDigit]
    intro no_digit
    obtain ⟨no_whole, _⟩ := List.append_eq_nil_iff.mp no_digit
    have some_fraction := l.some_digit.resolve_left (not_not_intro no_whole)
    have isDigit := l.fraction_isDigit
    cases fraction : l.fraction? with
    | none => rw [fraction] at some_fraction; exact absurd rfl some_fraction
    | some places =>
      rw [fraction, Option.getD_some] at some_fraction isDigit
      rw [Literal.pointText, List.cons_append,
        afterDigits_eq_self fun c first => by cases first; decide, fractionDigits,
        digits_append isDigit]
      exact List.append_ne_nil_of_left_ne_nil some_fraction _
  simp only [scan?, if_neg some_digit]
  split <;> exact Option.some_ne_none _

/-- The longest literal is the one that is scanned. -/
theorem scan?_of_isLongest {l : Literal} {rest : List Char}
    (longest : (Lexeme.operand l).IsLongest rest) :
    ∃ n, scan? (l.text ++ rest) = some (n, rest) ∧ n.value = l.value := by
  obtain ⟨⟨n, after⟩, found⟩ :=
    Option.ne_none_iff_exists'.mp (scan?_ne_none (List.prefix_append l.text rest))
  obtain ⟨l', text, same, ends⟩ := exists_literal_of_scan? found
  have no_longer : l'.text.length ≤ l.text.length := longest (.operand l') ⟨after, text.symm⟩
  have no_shorter : l.text.length ≤ l'.text.length := Literal.longest ends ⟨rest, text⟩
  obtain ⟨texts, rfl⟩ := List.append_inj text (Nat.le_antisymm no_shorter no_longer)
  have values := read?_text l'
  rw [← texts, read?_text l, Option.some.injEq] at values
  exact ⟨n, found, by rw [values, Literal.value, same]⟩

end Numeral

namespace Token

/-- Whether a text comes to what is left of it by blanks and words taken off from left to right,
always the longest word that there is. -/
inductive Advances : List Char → List (Lexeme Literal) → List Char → Prop
  | refl (cs : List Char) : Advances cs [] cs
  | blank {c : Char} {cs rest : List Char} {words : List (Lexeme Literal)}
      (isBlank : Text.isBlank c = true)
      (advances : Advances cs words rest) : Advances (c :: cs) words rest
  | word {cs rest : List Char} {words : List (Lexeme Literal)} (word : Lexeme Literal)
      (longest : word.IsLongest cs)
      (advances : Advances cs words rest) : Advances (word.plainText ++ cs) (word :: words) rest

/-- Whether a text begins with neither a blank nor a word. -/
structure Stuck (c : Char) (rest : List Char) : Prop where
  no_blank : Text.isBlank c = false
  no_word : ∀ word : Lexeme Literal, ¬word.plainText <+: c :: rest

theorem stuck_iff {c : Char} {rest : List Char} :
    Stuck c rest ↔ Text.isBlank c = false ∧ ofChar? c = none ∧
      Numeral.scan? (c :: rest) = none := by
  constructor
  · intro stuck
    refine ⟨stuck.no_blank, ?_, ?_⟩
    · cases here : ofChar? c with
      | none => rfl
      | some token =>
        obtain ⟨word, text, _, _⟩ := Lexeme.exists_eq_of_ofChar? here
        exact absurd ⟨rest, by rw [text]; rfl⟩ (stuck.no_word word)
    · cases found : Numeral.scan? (c :: rest) with
      | none => rfl
      | some numeral =>
        obtain ⟨l, text, _, _⟩ := Numeral.exists_literal_of_scan? found
        exact absurd ⟨_, text.symm⟩ (stuck.no_word (.operand l))
  · rintro ⟨no_blank, no_token, no_numeral⟩
    refine ⟨no_blank, fun word begins => ?_⟩
    by_cases isOperand : word.IsOperand
    · cases word with
      | operand l => exact Numeral.scan?_ne_none begins no_numeral
      | operator => exact isOperand
      | opening => exact isOperand
      | closing => exact isOperand
    · obtain ⟨d, text, token⟩ := word.exists_eq_singleton isOperand
      rw [text] at begins
      rw [(List.cons_prefix_cons.mp begins).1, no_token] at token
      cases token

/-- At a point no word starts unless a digit follows it. -/
theorem stuck_point_iff {rest : List Char} :
    Stuck '.' rest ↔ ∀ c, rest.head? = some c → c.isDigit = false := by
  constructor
  · intro stuck c first
    rw [Bool.eq_false_iff]
    intro digit
    obtain ⟨more, rfl⟩ := List.head?_eq_some_iff.mp first
    let l : Literal :=
      ⟨[], some [c], none, nofun, by simpa using digit, .inr (List.cons_ne_nil _ _)⟩
    exact stuck.no_word (.operand l) ⟨more, rfl⟩
  · intro ends
    have no_whole : Numeral.digits ('.' :: rest) = [] :=
      Numeral.digits_eq_nil fun c first => by cases first; decide
    have behind : Numeral.afterDigits ('.' :: rest) = '.' :: rest :=
      Numeral.afterDigits_eq_self fun c first => by cases first; decide
    refine stuck_iff.mpr ⟨rfl, rfl, ?_⟩
    simp only [Numeral.scan?, no_whole, behind, Numeral.fractionDigits, Numeral.digits_eq_nil ends,
      List.isEmpty_nil, Bool.and_self, if_true]

/-- Nothing goes on from where no word starts. -/
theorem scan_of_stuck {c : Char} {rest : List Char} (stuck : Stuck c rest) :
    scan (c :: rest) = .error (if c = '.' then .invalidNumeral else .illegalCharacter) := by
  obtain ⟨no_blank, no_token, no_numeral⟩ := stuck_iff.mp stuck
  rw [scan, no_blank]
  simp only [Bool.false_eq_true, if_false, no_token]
  split
  · rename_i found
    rw [no_numeral] at found
    cases found
  · rfl

/-- The longest word is the token that is scanned. -/
theorem scan_word {word : Lexeme Literal} {rest : List Char} (longest : word.IsLongest rest) :
    scan (word.plainText ++ rest) = (scan rest).map (word.plainToken :: ·) := by
  cases word with
  | operator op => exact scan_ofChar (ofChar?_symbol op) rest
  | opening => exact scan_ofChar rfl rest
  | closing => exact scan_ofChar rfl rest
  | operand l =>
    obtain ⟨n, found, same⟩ := Numeral.scan?_of_isLongest longest
    obtain ⟨c, more, text, begins⟩ := exists_eq_cons_of_literal l
    show scan (l.text ++ rest) = (scan rest).map (.number l.value :: ·)
    rw [text, List.cons_append] at found ⊢
    rw [scan_numeral begins found, same]

theorem scan_of_advances {cs rest : List Char} {words : List (Lexeme Literal)}
    (advances : Advances cs words rest) :
    scan cs = (scan rest).map (words.map Lexeme.plainToken ++ ·) := by
  induction advances with
  | refl cs => cases scan cs <;> rfl
  | blank isBlank _ ih => rw [scan_blank isBlank, ih]
  | @word cs rest words word longest _ ih =>
    rw [scan_word longest, ih]
    cases scan rest <;> rfl

/-- Each word is a character or more of the text. -/
theorem Advances.length_le {cs rest : List Char} {words : List (Lexeme Literal)}
    (advances : Advances cs words rest) : words.length + rest.length ≤ cs.length := by
  induction advances with
  | refl => simp
  | blank _ _ ih => exact Nat.le_succ_of_le ih
  | word word _ _ ih =>
    have positive := word.length_plainText_pos
    rw [List.length_cons, List.length_append]
    omega

/-- Every text is gone through to its end or to a place where no word starts. -/
theorem exists_advances (cs : List Char) : ∃ words rest, Advances cs words rest ∧
    (rest = [] ∨ ∃ c more, rest = c :: more ∧ Stuck c more) := by
  generalize size : cs.length = n
  induction n using Nat.strongRecOn generalizing cs with
  | ind n ih =>
    subst size
    cases cs with
    | nil => exact ⟨[], [], .refl _, .inl rfl⟩
    | cons c cs =>
      by_cases blank : Text.isBlank c = true
      · obtain ⟨words, rest, advances, done⟩ := ih _ (Nat.lt_succ_self _) cs rfl
        exact ⟨words, rest, advances.blank blank, done⟩
      · cases here : ofChar? c with
        | some token =>
          obtain ⟨word, text, _, no_operand⟩ := Lexeme.exists_eq_of_ofChar? here
          obtain ⟨words, rest, advances, done⟩ := ih _ (Nat.lt_succ_self _) cs rfl
          have all := advances.word word (Lexeme.isLongest_of_not_isOperand no_operand cs)
          rw [text] at all
          exact ⟨_, rest, all, done⟩
        | none =>
          cases found : Numeral.scan? (c :: cs) with
          | some scanned =>
            obtain ⟨n, after⟩ := scanned
            obtain ⟨l, text, _, ends⟩ := Numeral.exists_literal_of_scan? found
            obtain ⟨words, rest, advances, done⟩ := ih _ (Numeral.scan?_length_lt found) after rfl
            have all := advances.word (.operand l) ends.isLongest
            exact ⟨_, rest, text ▸ all, done⟩
          | none =>
            exact ⟨[], c :: cs, .refl _,
              .inr ⟨c, cs, rfl, stuck_iff.mpr ⟨by simpa using blank, here, found⟩⟩⟩

theorem scan_eq_ok_iff {cs : List Char} {tokens : List Token} :
    scan cs = .ok tokens ↔ ∃ words, Advances cs words [] ∧
      words.map Lexeme.plainToken = tokens := by
  constructor
  · intro scanned
    obtain ⟨words, rest, advances, done⟩ := exists_advances cs
    rw [scan_of_advances advances] at scanned
    rcases done with rfl | ⟨c, more, rfl, stuck⟩
    · rw [scan_nil] at scanned
      cases scanned
      exact ⟨words, advances, (List.append_nil _).symm⟩
    · rw [scan_of_stuck stuck] at scanned
      cases scanned
  · rintro ⟨words, advances, rfl⟩
    rw [scan_of_advances advances, scan_nil]
    exact congrArg Except.ok (List.append_nil _)

theorem scan_eq_error_iff {cs : List Char} {fault : SyntaxFault} :
    scan cs = .error fault ↔ ∃ words c rest, Advances cs words (c :: rest) ∧ Stuck c rest ∧
      fault = if c = '.' then .invalidNumeral else .illegalCharacter := by
  constructor
  · intro scanned
    obtain ⟨words, rest, advances, done⟩ := exists_advances cs
    rw [scan_of_advances advances] at scanned
    rcases done with rfl | ⟨c, more, rfl, stuck⟩
    · rw [scan_nil] at scanned
      cases scanned
    · rw [scan_of_stuck stuck] at scanned
      cases scanned
      exact ⟨words, c, more, advances, stuck, rfl⟩
  · rintro ⟨words, c, rest, advances, stuck, rfl⟩
    rw [scan_of_advances advances, scan_of_stuck stuck]
    rfl

/-- A text is scanned just when blanks and words, each as long as it can be, make up all of it, and
the tokens are those of the words. Otherwise the fault is that of the first place where no word
starts: a point with no digit behind it is a numeral gone wrong, any other character is out of
place. Every literal can be read as a number, no other text can, and no word is empty. -/
theorem scan_takes_longest (cs : List Char) :
    (∀ tokens, scan cs = .ok tokens ↔ ∃ words, Advances cs words [] ∧
      words.map Lexeme.plainToken = tokens) ∧
    (∀ fault, scan cs = .error fault ↔
      ∃ words c rest, Advances cs words (c :: rest) ∧ Stuck c rest ∧
      fault = if c = '.' then .invalidNumeral else .illegalCharacter) ∧
    (∀ rest, Stuck '.' rest ↔ ∀ c, rest.head? = some c → c.isDigit = false) ∧
    (∀ text x, Numeral.read? text = some x ↔ ∃ l : Literal, l.text = text ∧ l.value = x) ∧
    ∀ words rest, Advances cs words rest → words.length + rest.length ≤ cs.length :=
  ⟨fun _ => scan_eq_ok_iff, fun _ => scan_eq_error_iff, fun _ => stuck_point_iff,
    fun _ _ => Numeral.read?_eq_some_iff, fun _ _ => Advances.length_le⟩

end Token

end CalcLength
