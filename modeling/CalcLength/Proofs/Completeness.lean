import CalcLength.Proofs.Derivation
import CalcLength.Proofs.Substitution

namespace CalcLength

namespace Text

theorem dropWhile_isSpace_append {front : List Char} (space : ∀ c ∈ front, isSpace c = true)
    {rest : List Char} (starts : ∀ c, rest.head? = some c → isSpace c = false) :
    (front ++ rest).dropWhile isSpace = rest := by
  rw [List.dropWhile_append_of_pos space]
  cases rest with
  | nil => rfl
  | cons c rest => exact List.dropWhile_cons_of_neg (by rw [starts c rfl]; decide)

/-- White space at the two ends is all that is taken off. -/
theorem trim_append {front middle back : List Char} (space : ∀ c ∈ front, isSpace c = true)
    (space' : ∀ c ∈ back, isSpace c = true)
    (starts : ∀ c, middle.head? = some c → isSpace c = false)
    (ends : ∀ c, middle.getLast? = some c → isSpace c = false) (some_text : middle ≠ []) :
    trim (front ++ middle ++ back) = middle := by
  obtain ⟨c, more, text⟩ := List.exists_cons_of_ne_nil some_text
  have first : (front ++ middle ++ back).dropWhile isSpace = middle ++ back := by
    rw [List.append_assoc]
    refine dropWhile_isSpace_append space fun d first => starts d ?_
    rw [text] at first ⊢
    exact first
  have last : (back.reverse ++ middle.reverse).dropWhile isSpace = middle.reverse := by
    refine dropWhile_isSpace_append (fun c member => space' c (List.mem_reverse.mp member))
      fun c last => ends c ?_
    rwa [List.head?_reverse] at last
  rw [trim, first, List.reverse_append, last, List.reverse_reverse]

theorem trim_cons_concat {c d : Char} (starts : isSpace c = false) (ends : isSpace d = false)
    (middle : List Char) : trim (c :: (middle ++ [d])) = c :: (middle ++ [d]) := by
  have nothing : ∀ c ∈ ([] : List Char), isSpace c = true :=
    fun _ member => absurd member List.not_mem_nil
  have trimmed : trim ([] ++ (c :: middle ++ [d]) ++ []) = c :: middle ++ [d] := by
    refine trim_append nothing nothing (fun e first => ?_) (fun e last => ?_) (List.cons_ne_nil _ _)
    · cases first
      exact starts
    · rw [List.getLast?_concat] at last
      cases last
      exact ends
  rwa [List.nil_append, List.append_nil] at trimmed

theorem not_isSpace_of_isDigit {c : Char} (digit : c.isDigit = true) : isSpace c = false := by
  simp only [Char.isDigit, Bool.and_eq_true, decide_eq_true_eq] at digit
  have low : 0x30 ≤ c.toNat := digit.1
  have high : c.toNat ≤ 0x39 := digit.2
  simp only [isSpace, spaceRuns, List.any_cons, List.any_nil, Bool.or_eq_false_iff,
    Bool.and_eq_false_iff, decide_eq_false_iff_not, and_true]
  omega

end Text

theorem Literal.not_isSpace (l : Literal) {c : Char} (member : c ∈ l.text) :
    Text.isSpace c = false := by
  rcases l.numberShape.mem member with digit | rfl | letter | sign
  · exact Text.not_isSpace_of_isDigit digit
  · decide
  · rcases letter with rfl | rfl <;> decide
  · rcases sign with rfl | rfl <;> decide

theorem Suffix.not_isSpace_of_mem_alphabet : ∀ c ∈ alphabet, Text.isSpace c = false :=
  List.all_iff_forall_prop.mp rfl

theorem Lexeme.not_isSpace (word : Lexeme Leaf) {c : Char} (member : c ∈ word.text) :
    Text.isSpace c = false := by
  cases word with
  | operator op =>
    rw [List.mem_singleton.mp member]
    cases op <;> decide
  | opening =>
    rw [List.mem_singleton.mp member]
    decide
  | closing =>
    rw [List.mem_singleton.mp member]
    decide
  | operand leaf =>
    cases leaf with
    | literal l => exact l.not_isSpace member
    | length l suffix =>
      rcases List.mem_append.mp member with number | letter
      · exact l.not_isSpace number
      · exact Suffix.not_isSpace_of_mem_alphabet c (Suffix.mem_alphabet letter)

namespace Spells

variable {cs : List Char} {words : List (Lexeme Leaf)}

theorem blanks {front : List Char} (blank : ∀ c ∈ front, Text.isBlank c = true)
    (spells : Spells cs words) : Spells (front ++ cs) words := by
  induction front with
  | nil => exact spells
  | cons c front ih =>
    exact (ih fun d member => blank d (List.mem_cons_of_mem _ member)).blank
      (blank c (List.mem_cons_self ..))

theorem ne_nil (spells : Spells cs words) (some_word : words ≠ []) : cs ≠ [] := by
  cases spells with
  | nil => exact absurd rfl some_word
  | blank => exact List.cons_ne_nil _ _
  | word word => exact List.append_ne_nil_of_left_ne_nil word.text_ne_nil _

/-- A spelled text does not begin with the word that may stand before it. -/
theorem head?_ne_letter (spells : Spells cs words) : cs.head? ≠ some 'c' := by
  intro first
  cases spells with
  | nil => cases first
  | blank isBlank =>
    cases first
    cases isBlank
  | word word =>
    obtain ⟨c, more, text, other, isOperand⟩ := word.exists_eq_cons
    rw [text] at first
    cases first
    cases word with
    | operand => rcases isOperand trivial with digit | point <;> contradiction
    | operator => cases (other id).2
    | opening => cases (other id).2
    | closing => cases (other id).2

/-- A spelled text without the blanks at its two ends. -/
theorem exists_trimmed (spells : Spells cs words) :
    ∃ front middle back, cs = front ++ middle ++ back ∧
      (∀ c ∈ front, Text.isBlank c = true) ∧ (∀ c ∈ back, Text.isBlank c = true) ∧
      Spells middle words ∧
      (∀ c, middle.head? = some c → Text.isSpace c = false) ∧
      (∀ c, middle.getLast? = some c → Text.isSpace c = false) := by
  induction spells with
  | nil => exact ⟨[], [], [], rfl, nofun, nofun, .nil, nofun, nofun⟩
  | @blank c _ _ isBlank _ ih =>
    obtain ⟨front, middle, back, rfl, blank, blank', spells, starts, ends⟩ := ih
    exact ⟨c :: front, middle, back, rfl, List.forall_mem_cons.mpr ⟨isBlank, blank⟩,
      blank', spells, starts, ends⟩
  | word word _ ih =>
    obtain ⟨front, middle, back, rfl, blank, blank', spells, starts, ends⟩ := ih
    obtain ⟨c, more, text, _⟩ := word.exists_eq_cons
    have first (rest : List Char) : ∀ d, (word.text ++ rest).head? = some d →
        Text.isSpace d = false := by
      intro d first
      rw [text] at first
      cases first
      exact word.not_isSpace (text ▸ List.mem_cons_self)
    by_cases none : middle = []
    · subst none
      refine ⟨[], word.text ++ [], front ++ back, by simp, nofun, ?_, spells.word word,
        first [], fun d last => ?_⟩
      · exact List.forall_mem_append.mpr ⟨blank, blank'⟩
      · rw [List.append_nil] at last
        exact word.not_isSpace (List.mem_of_getLast? last)
    · refine ⟨[], word.text ++ (front ++ middle), back, by simp, nofun, blank',
        (spells.blanks blank).word word, first _, fun d last => ends d ?_⟩
      obtain ⟨e, atEnd⟩ := exists_getLast? none
      rw [List.getLast?_append, List.getLast?_append, atEnd] at last
      rw [atEnd]
      exact last

end Spells

namespace Calc

variable {scale : Scale} {axis : Axis} {values : Leaf → Float}

/-- A spelled sentence comes to the value of its tree. -/
theorem value_of_spells (s : Sentence Leaf) {cs : List Char} (spells : Spells cs s.words)
    (measured : ∀ leaf ∈ s.operands, leaf.Measured scale axis values)
    (shallow : s.nesting (fun leaf => if leaf.negative values then 1 else 0) ≤ Formula.maxNesting) :
    value scale axis cs = .ok (s.formula values).value := by
  obtain ⟨plain, replaced, _, scanned⟩ : ReadsAs scale axis values none cs s.words :=
    spells.readsAs (s.unattached _) (fun leaf member => measured leaf (s.mem_operands.mpr member))
      (.inr rfl)
  obtain ⟨t, words, depth, tree⟩ : ∃ t : Sentence Float,
      t.words = s.words.flatMap (Lexeme.expand (Leaf.negative values) (Leaf.size values)) ∧
      t.depth = s.nesting (fun leaf => if leaf.negative values then 1 else 0) ∧
      t.tree.value = (s.formula values).value :=
    s.exists_expansion fun leaf member => Leaf.signedValue (measured leaf member).finite
  have tokens : t.tokens = Leaf.tokens values s.words := by
    rw [Phrase.tokens, words, Leaf.tokens]
  have parsed := Formula.parse_tokens (depth ▸ shallow)
  rw [tokens] at parsed
  simp only [value, replaced, Formula.read, scanned, parsed]
  exact congrArg Except.ok tree

/-- Of a spelled sentence and what surrounds it a spelling of the sentence is left. -/
theorem body_spells (s : Sentence Leaf) {cs front word back : List Char}
    (spells : Spells cs s.words) (space : ∀ c ∈ front, Text.isSpace c = true)
    (space' : ∀ c ∈ back, Text.isSpace c = true)
    (prefixed : word = [] ∨ word = ['c', 'a', 'l', 'c']) :
    Spells (body (front ++ (word ++ cs) ++ back)) s.words := by
  obtain ⟨first, middle, last, rfl, blank, blank', spells, starts, ends⟩ := spells.exists_trimmed
  have some_text := spells.ne_nil s.words_ne_nil
  have isSpace {cs : List Char} (blank : ∀ c ∈ cs, Text.isBlank c = true) :
      ∀ c ∈ cs, Text.isSpace c = true :=
    fun c member => Text.isSpace_of_isBlank (blank c member)
  have behind : ∀ c ∈ last ++ back, Text.isSpace c = true :=
    List.forall_mem_append.mpr ⟨isSpace blank', space'⟩
  rcases prefixed with rfl | rfl
  · have before : ∀ c ∈ front ++ first, Text.isSpace c = true :=
      List.forall_mem_append.mpr ⟨space, isSpace blank⟩
    have trimmed := Text.trim_append before behind starts ends some_text
    have text : front ++ ([] ++ (first ++ middle ++ last)) ++ back =
        front ++ first ++ middle ++ (last ++ back) := by simp
    have unprefixed : Text.dropFirst ['c', 'a', 'l', 'c'] middle = middle := by
      rw [Text.dropFirst, if_neg]
      rw [List.isPrefixOf_iff_prefix]
      rintro ⟨more, text⟩
      exact spells.head?_ne_letter (by rw [← text]; rfl)
    rw [body, text, trimmed, unprefixed]
    exact spells
  · have starts' : ∀ c, (['c', 'a', 'l', 'c'] ++ (first ++ middle)).head? = some c →
        Text.isSpace c = false := by
      intro c first
      cases first
      decide
    have ends' : ∀ c, (['c', 'a', 'l', 'c'] ++ (first ++ middle)).getLast? = some c →
        Text.isSpace c = false := by
      intro c last
      obtain ⟨d, atEnd⟩ := exists_getLast? some_text
      rw [List.getLast?_append, List.getLast?_append, atEnd] at last
      exact ends c (atEnd.trans last)
    have trimmed := Text.trim_append space behind starts' ends' (List.cons_ne_nil _ _)
    have text : front ++ (['c', 'a', 'l', 'c'] ++ (first ++ middle ++ last)) ++ back =
        front ++ (['c', 'a', 'l', 'c'] ++ (first ++ middle)) ++ (last ++ back) := by simp
    rw [body, text, trimmed, Text.dropFirst_append]
    exact spells.blanks blank

/-- A spelled sentence that comes to a finite number, with or without the word before it. -/
theorem pixels_of_spells (s : Sentence Leaf) {cs word : List Char} (spells : Spells cs s.words)
    (measured : ∀ leaf ∈ s.operands, leaf.Measured scale axis values)
    (shallow : s.nesting (fun leaf => if leaf.negative values then 1 else 0) ≤ Formula.maxNesting)
    (prefixed : word = [] ∨ word = ['c', 'a', 'l', 'c'])
    (finite : (s.formula values).value.isFinite = true) :
    pixels scale axis (word ++ cs) = .ok (s.formula values).value := by
  have left : Spells (body ([] ++ (word ++ cs) ++ [])) s.words :=
    body_spells s spells nofun nofun prefixed
  rw [List.nil_append, List.append_nil] at left
  rw [pixels, value_of_spells s left measured shallow]
  exact if_pos finite

/-- A sentence, however its words are spaced, comes to the value of its tree, or is refused
because that is not finite. -/
theorem pixels_of_sentence (s : Sentence Leaf) {cs front word back : List Char}
    (spells : Spells cs s.words) (measured : ∀ leaf ∈ s.operands, leaf.Measured scale axis values)
    (shallow : s.nesting (fun leaf => if leaf.negative values then 1 else 0) ≤ Formula.maxNesting)
    (space : ∀ c ∈ front, Text.isSpace c = true) (space' : ∀ c ∈ back, Text.isSpace c = true)
    (prefixed : word = [] ∨ word = ['c', 'a', 'l', 'c']) :
    pixels scale axis (front ++ (word ++ cs) ++ back) =
      if (s.formula values).value.isFinite then .ok (s.formula values).value
        else .error .notFinite := by
  rw [pixels, value_of_spells s (body_spells s spells space space' prefixed) measured shallow]

theorem pixels_of_sentence_difference :
    pixels ((Scale.ofPercents 1 1).set .em (-16)) .horizontal " calc2 -1em\n".toList = .ok 18 := by
  let two : Leaf := .literal (.ofDigits ['2'] (List.all_eq_true.mp rfl) (List.cons_ne_nil _ _))
  let em : Leaf :=
    .length (.ofDigits ['1'] (List.all_eq_true.mp rfl) (List.cons_ne_nil _ _)) (.relative .em)
  let s : Sentence Leaf :=
    .join (.single (.single (.unsigned (.operand two)))) .subtract rfl
      (.single (.unsigned (.operand em)))
  have spells : Spells "2 -1em".toList s.words :=
    .word (.operand two) (.blank rfl (.word (.operator .subtract) (.word (.operand em) .nil)))
  have measured : ∀ leaf ∈ s.operands, leaf.Measured ((Scale.ofPercents 1 1).set .em (-16))
      .horizontal (Leaf.value ((Scale.ofPercents 1 1).set .em (-16)) .horizontal) := by
    intro leaf member
    rcases List.mem_pair.mp member with rfl | rfl
    · exact ⟨trivial, rfl, False.elim⟩
    · exact ⟨nofun, rfl, fun _ => by decide +kernel⟩
  have space : ∀ c ∈ [' '], Text.isSpace c = true := List.all_eq_true.mp rfl
  have space' : ∀ c ∈ ['\n'], Text.isSpace c = true := List.all_eq_true.mp rfl
  have shallow :
      s.nesting (fun leaf =>
        if leaf.negative (Leaf.value ((Scale.ofPercents 1 1).set .em (-16)) .horizontal)
        then 1 else 0) ≤ Formula.maxNesting := by decide +kernel
  exact (pixels_of_sentence s spells measured shallow space space' (.inr rfl)).trans
    (by decide +kernel)

end Calc

end CalcLength
