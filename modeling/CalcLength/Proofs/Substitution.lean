import CalcLength.Proofs.Expansion
import CalcLength.Proofs.NumberText
import CalcLength.Proofs.Spelling

namespace CalcLength

namespace Leaf

variable (values : Leaf → Float)

/-- Whether the text of a leaf's value begins with a minus sign. -/
def negative : Leaf → Bool
  | literal _ => false
  | length l suffix => Binary64.isNegative (values (length l suffix))

/-- A leaf's value without its sign. -/
def size : Leaf → Float
  | literal l => values (literal l)
  | length l suffix => Binary64.magnitude (values (length l suffix))

/-- The tokens that a word is read as once its length is replaced by a number of pixels. -/
def tokens (words : List (Lexeme Leaf)) : List Token :=
  (words.flatMap (Lexeme.expand (negative values) (size values))).map Lexeme.token

variable {values}

theorem tokens_cons (word : Lexeme Leaf) (words : List (Lexeme Leaf)) :
    tokens values (word :: words) =
      (word.expand (negative values) (size values)).map Lexeme.token ++ tokens values words := by
  rw [tokens, List.flatMap_cons, List.map_append, tokens]

theorem expand_length (l : Literal) (suffix : Suffix) :
    ((Lexeme.operand (length l suffix)).expand (negative values) (size values)).map Lexeme.token =
      Number.tokens (values (length l suffix)) := by
  rw [Lexeme.expand, negative, size, Number.tokens]
  split <;> rfl

/-- What the words are scanned as once each length is replaced by a number of pixels. An
infinity and a NaN have no numeral. -/
def scanned (values : Leaf → Float) : List (Lexeme Leaf) → Except SyntaxFault (List Token)
  | [] => .ok []
  | .operand (length l suffix) :: words =>
    if (values (length l suffix)).isFinite then
      (scanned values words).map (Number.tokens (values (length l suffix)) ++ ·)
    else .error .illegalCharacter
  | word :: words =>
    (scanned values words).map ((word.expand (negative values) (size values)).map Lexeme.token ++ ·)

section Length

variable {l : Literal} {suffix : Suffix}

theorem scanned_length (finite : (values (length l suffix)).isFinite = true)
    (words : List (Lexeme Leaf)) :
    scanned values (.operand (length l suffix) :: words) =
      (scanned values words).map (Number.tokens (values (length l suffix)) ++ ·) := by
  rw [scanned, if_pos finite]

theorem scanned_length_of_not_isFinite (infinite : (values (length l suffix)).isFinite = false)
    (words : List (Lexeme Leaf)) :
    scanned values (.operand (length l suffix) :: words) = .error .illegalCharacter := by
  rw [scanned, if_neg (by rw [infinite]; decide)]

end Length

/-- A word that brings no infinite length adds its own tokens. -/
theorem scanned_cons {word : Lexeme Leaf}
    (finite : ∀ leaf, word = .operand leaf → leaf.IsLength → (values leaf).isFinite = true)
    (words : List (Lexeme Leaf)) :
    scanned values (word :: words) =
      (scanned values words).map
        ((word.expand (negative values) (size values)).map Lexeme.token ++ ·) := by
  cases word with
  | operand leaf =>
    cases leaf with
    | literal l => rfl
    | length l suffix => rw [scanned_length (finite _ rfl trivial), expand_length]
  | operator op => rfl
  | opening => rfl
  | closing => rfl

theorem scanned_of_finite {words : List (Lexeme Leaf)}
    (finite : ∀ leaf, .operand leaf ∈ words → leaf.IsLength → (values leaf).isFinite = true) :
    scanned values words = .ok (tokens values words) := by
  induction words with
  | nil => rfl
  | cons word words ih =>
    have here : ∀ leaf, word = .operand leaf → leaf.IsLength → (values leaf).isFinite = true := by
      rintro leaf rfl
      exact finite leaf (List.mem_cons_self ..)
    rw [scanned_cons here, ih fun leaf member => finite leaf (List.mem_cons_of_mem _ member),
      tokens_cons]
    rfl

/-- One length that is not finite is enough for the scan to fail, wherever it stands. -/
theorem scanned_of_not_isFinite {words : List (Lexeme Leaf)} {leaf : Leaf}
    (member : .operand leaf ∈ words) (isLength : leaf.IsLength)
    (infinite : (values leaf).isFinite = false) :
    scanned values words = .error .illegalCharacter := by
  induction words with
  | nil => cases member
  | cons word words ih =>
    by_cases finite : ∀ leaf, word = .operand leaf → leaf.IsLength → (values leaf).isFinite = true
    · rcases List.mem_cons.mp member with rfl | member
      · rw [finite leaf rfl isLength] at infinite
        cases infinite
      · rw [scanned_cons finite, ih member]
        rfl
    · simp only [not_forall, Bool.not_eq_true] at finite
      obtain ⟨first, rfl, isLength, infinite⟩ := finite
      cases first with
      | literal => cases isLength
      | length l suffix => exact scanned_length_of_not_isFinite infinite words

theorem signedValue {leaf : Leaf} (finite : leaf.IsLength → (values leaf).isFinite = true) :
    SignedValue (negative values) (size values) values leaf := by
  cases leaf with
  | literal l => rfl
  | length l suffix => exact Binary64.eq_signed_magnitude (finite trivial)

end Leaf

namespace Piece

theorem text_ne_nil (piece : Piece) : piece.text ≠ [] := by
  cases piece with
  | plain c => exact List.cons_ne_nil _ _
  | length number suffix => exact List.append_ne_nil_of_right_ne_nil _ suffix.letters_ne_nil

theorem first?_eq_head? (pieces : List Piece) : first? pieces = (pieces.flatMap text).head? := by
  cases pieces with
  | nil => rfl
  | cons piece rest =>
    rw [first?, List.flatMap_cons, List.head?_append_of_ne_nil _ piece.text_ne_nil]

theorem first?_split (cs : List Char) : first? (split cs) = cs.head? := by
  rw [first?_eq_head?, flatMap_text_split]

end Piece

theorem Delimits.not_joins {c : Char} (delimits : Delimits c) : Calc.joins c = false := by
  have apart : ∀ c ∈ delimiters, Calc.joins c = false := List.all_iff_forall_prop.mp rfl
  exact apart c delimits.mem

namespace Calc

variable {scale : Scale} {axis : Axis}

theorem lengthPixels_text (l : Literal) (suffix : Suffix) :
    lengthPixels scale axis l.text suffix = (Leaf.length l suffix).pixels scale axis := by
  rw [lengthPixels, Numeral.read?_text, Leaf.pixels]
  cases scale.ratio axis suffix <;> rfl

theorem inPixels_map_plain (text : List Char) (before : Option Char) (pieces : List Piece) :
    inPixels scale axis before (text.map .plain ++ pieces) =
      (inPixels scale axis (text.getLast?.or before) pieces).map (text ++ ·) := by
  induction text generalizing before with
  | nil =>
    show inPixels scale axis before pieces = (inPixels scale axis before pieces).map ([] ++ ·)
    cases inPixels scale axis before pieces <;> rfl
  | cons c text ih =>
    have last : text.getLast?.or (some c) = ((c :: text).getLast?).or before := by
      cases text with
      | nil => rfl
      | cons d text =>
        obtain ⟨e, atEnd⟩ := exists_getLast? (List.cons_ne_nil d text)
        rw [List.getLast?_cons_cons, atEnd]
        rfl
    rw [List.map_cons, List.cons_append, inPixels, ih, last]
    cases inPixels scale axis (((c :: text).getLast?).or before) pieces <;> rfl

theorem standsApart_of_delimited {before : Option Char} (apart : before.any joins = false)
    {rest : List Char} (delimited : Delimited rest) : standsApart before rest.head? = true := by
  have behind : rest.head?.any joins = false := by
    cases rest with
    | nil => rfl
    | cons c rest => exact (delimited_cons.mp delimited).not_joins
  rw [standsApart, apart, behind]
  rfl

/-- A length that stands apart is replaced by its number of pixels. -/
theorem inPixels_length {before : Option Char} {number : List Char} {suffix : Suffix}
    {rest : List Char} {x : Float} (apart : standsApart before rest.head? = true)
    (measured : lengthPixels scale axis number suffix = .ok x) :
    inPixels scale axis before (.length number suffix :: Piece.split rest) =
      (inPixels scale axis suffix.letters.getLast? (Piece.split rest)).map
        (Number.write x ++ ·) := by
  rw [inPixels, Piece.first?_split, if_pos apart, measured]

end Calc

/-- In a spelled text whose operands stand apart a delimiter follows each. -/
theorem Spells.delimited_of_unattached {cs : List Char} {leaf : Leaf} {words : List (Lexeme Leaf)}
    (spells : Spells cs words) (unattached : Unattached (fun _ => True) (.operand leaf :: words)) :
    Delimited cs := by
  refine spells.delimited fun next first isOperand => ?_
  cases next with
  | operand a => exact (List.isChain_cons.mp unattached).1 _ first a rfl trivial trivial
  | operator => exact isOperand
  | opening => exact isOperand
  | closing => exact isOperand

/-- What a leaf is taken for: a length has a number that it may have, and the values
are what the leaves come to. -/
structure Leaf.Measured (scale : Scale) (axis : Axis) (values : Leaf → Float)
    (leaf : Leaf) : Prop where
  proper : leaf.Proper
  pixels : leaf.pixels scale axis = .ok (values leaf)
  finite : leaf.IsLength → (values leaf).isFinite = true

section Reading

open Calc

variable {scale : Scale} {axis : Axis} {values : Leaf → Float}

/-- Whether the text of a spelled expression is replaced by one that is read as its words. -/
def ReadsAs (scale : Scale) (axis : Axis) (values : Leaf → Float) (before : Option Char)
    (cs : List Char) (words : List (Lexeme Leaf)) : Prop :=
  ∃ plain, inPixels scale axis before (Piece.split cs) = .ok plain ∧
    (Delimited cs → Delimited plain) ∧
    Token.scan plain = .ok (Leaf.tokens values words)

/-- Whether the text of a spelled expression is replaced by one whose scan comes to
what its words are scanned as. -/
def ScansAs (scale : Scale) (axis : Axis) (values : Leaf → Float) (before : Option Char)
    (cs : List Char) (words : List (Lexeme Leaf)) : Prop :=
  ∃ plain, inPixels scale axis before (Piece.split cs) = .ok plain ∧
    (Delimited cs → Delimited plain) ∧
    Token.scan plain = Leaf.scanned values words

theorem ScansAs.blank {before : Option Char} {c : Char} {cs : List Char}
    {words : List (Lexeme Leaf)} (isBlank : Text.isBlank c = true)
    (scans : ScansAs scale axis values (some c) cs words) :
    ScansAs scale axis values before (c :: cs) words := by
  obtain ⟨plain, replaced, _, scanned⟩ := scans
  have delimits : Delimits c := .inl isBlank
  refine ⟨c :: plain, ?_, fun _ => delimited_cons.mpr delimits,
    (Token.scan_blank isBlank plain).trans scanned⟩
  rw [Piece.split_delimiter delimits, inPixels, replaced]
  rfl

theorem ScansAs.word {before : Option Char} {word : Lexeme Leaf} {cs : List Char}
    {words : List (Lexeme Leaf)} (other : ¬word.IsOperand)
    (scans : ScansAs scale axis values word.text.getLast? cs words) :
    ScansAs scale axis values before (word.text ++ cs) (word :: words) := by
  obtain ⟨plain, replaced, _, scanned⟩ := scans
  obtain ⟨c, token, text, here, expanded⟩ : ∃ c token, word.text = [c] ∧
    Token.ofChar? c = some token ∧
      Leaf.scanned values (word :: words) = (Leaf.scanned values words).map (token :: ·) := by
    cases word with
    | operator op => exact ⟨op.symbol, .operator op, rfl, Token.ofChar?_symbol op, rfl⟩
    | opening => exact ⟨'(', .opening, rfl, rfl, rfl⟩
    | closing => exact ⟨')', .closing, rfl, rfl, rfl⟩
    | operand leaf => exact absurd trivial other
  have delimits : Delimits c := .inr (by rw [here]; rfl)
  rw [text] at replaced ⊢
  refine ⟨c :: plain, ?_, fun _ => delimited_cons.mpr delimits, ?_⟩
  · rw [List.singleton_append, Piece.split_delimiter delimits, inPixels]
    exact congrArg (Except.map (c :: ·)) replaced
  · rw [Token.scan_ofChar here, scanned, expanded]

theorem ScansAs.literal {before : Option Char} {l : Literal} {cs : List Char}
    {words : List (Lexeme Leaf)} (value : l.value = values (.literal l)) (delimited : Delimited cs)
    (scans : ScansAs scale axis values (l.text.getLast?.or before) cs words) :
    ScansAs scale axis values before (l.text ++ cs) (.operand (.literal l) :: words) := by
  obtain ⟨plain, replaced, ends, scanned⟩ := scans
  refine ⟨l.text ++ plain, ?_, fun begins => ?_, ?_⟩
  · rw [Piece.split_literal l delimited, inPixels_map_plain, replaced]
    rfl
  · obtain ⟨c, more, text, first⟩ := Token.exists_eq_cons_of_literal l
    rw [text] at begins ⊢
    exact delimited_cons.mpr (delimited_cons.mp begins)
  · rw [Token.scan_literal l ((ends delimited).ends l), scanned, value]
    rfl

theorem ScansAs.length {before : Option Char} {l : Literal} {suffix : Suffix} {cs : List Char}
    {words : List (Lexeme Leaf)} (proper : l.Proper)
    (pixels : (Leaf.length l suffix).pixels scale axis = .ok (values (.length l suffix)))
    (apart : before.any joins = false) (delimited : Delimited cs)
    (scans : ScansAs scale axis values suffix.letters.getLast? cs words) :
    ScansAs scale axis values before (l.text ++ suffix.letters ++ cs)
      (.operand (.length l suffix) :: words) := by
  obtain ⟨plain, replaced, ends, scanned⟩ := scans
  have found := Piece.scan?_length proper suffix cs
  refine ⟨Number.write (values (.length l suffix)) ++ plain, ?_, fun begins => ?_, ?_⟩
  · rw [List.append_assoc, Piece.split_length found, inPixels_length
      (standsApart_of_delimited apart delimited) ((lengthPixels_text l suffix).trans pixels),
        replaced]
    rfl
  · obtain ⟨c, more, text, first⟩ := Token.exists_eq_cons_of_literal l
    rw [text, List.cons_append, List.cons_append, delimited_cons] at begins
    exact absurd begins (Token.BeginsNumeral.not_delimits first)
  · -- What is scanned of the rest counts only where this length has a numeral.
    cases finite : (values (.length l suffix)).isFinite with
    | true =>
      rw [Number.scan_write finite (ends delimited).ends, scanned, Leaf.scanned_length finite]
    | false =>
      rw [Number.scan_write_of_not_isFinite finite, Leaf.scanned_length_of_not_isFinite finite]

/-- What is spelled is scanned as its words: each operand for itself, since none touches another. -/
theorem Spells.scansAs {cs : List Char} {words : List (Lexeme Leaf)} (spells : Spells cs words)
    (unattached : Unattached (fun _ => True) words)
    (proper : ∀ leaf, .operand leaf ∈ words → leaf.Proper)
    (pixels : ∀ leaf, .operand leaf ∈ words → leaf.pixels scale axis = .ok (values leaf))
    {before : Option Char} (apart : Delimited cs ∨ before.any joins = false) :
    ScansAs scale axis values before cs words := by
  induction spells generalizing before with
  | nil =>
    refine ⟨[], ?_, id, Token.scan_nil⟩
    rw [Piece.split]
    rfl
  | @blank c _ _ isBlank _ ih =>
    have delimits : Delimits c := .inl isBlank
    have apart : (some c).any joins = false := delimits.not_joins
    exact (ih unattached proper pixels (.inr apart)).blank isBlank
  | @word cs words word spells ih =>
    have ih {before : Option Char} (apart : Delimited cs ∨ before.any joins = false) :
        ScansAs scale axis values before cs words :=
      ih unattached.tail (fun leaf member => proper leaf (List.mem_cons_of_mem _ member))
        (fun leaf member => pixels leaf (List.mem_cons_of_mem _ member)) apart
    cases word with
    | operand leaf =>
      have delimited := spells.delimited_of_unattached unattached
      have measured := pixels leaf (List.mem_cons_self ..)
      cases leaf with
      | literal l => exact (ih (.inl delimited)).literal (Except.ok.inj measured) delimited
      | length l suffix =>
        have isProper : (Leaf.length l suffix).Proper := proper _ (List.mem_cons_self ..)
        refine (ih (.inl delimited)).length isProper measured
          (apart.resolve_left fun begins => ?_) delimited
        obtain ⟨c, more, text, first⟩ := (Leaf.length l suffix).exists_eq_cons
        rw [Lexeme.text, text] at begins
        exact Token.BeginsNumeral.not_delimits first (delimited_cons.mp begins)
    | operator op => exact (ih (.inr (by cases op <;> rfl))).word id
    | opening => exact (ih (.inr rfl)).word id
    | closing => exact (ih (.inr rfl)).word id

/-- What is spelled is read as its words if each of its lengths is finite. -/
theorem Spells.readsAs {cs : List Char} {words : List (Lexeme Leaf)} (spells : Spells cs words)
    (unattached : Unattached (fun _ => True) words)
    (measured : ∀ leaf, .operand leaf ∈ words → leaf.Measured scale axis values)
    {before : Option Char} (apart : Delimited cs ∨ before.any joins = false) :
    ReadsAs scale axis values before cs words := by
  obtain ⟨plain, replaced, ends, scanned⟩ : ScansAs scale axis values before cs words :=
    spells.scansAs unattached (fun leaf member => (measured leaf member).proper)
      (fun leaf member => (measured leaf member).pixels) apart
  rw [Leaf.scanned_of_finite fun leaf member => (measured leaf member).finite] at scanned
  exact ⟨plain, replaced, ends, scanned⟩

end Reading

end CalcLength
