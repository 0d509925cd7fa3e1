import CalcLength.Proofs.Replacement

namespace CalcLength

/-- A part of an expression taken apart into words, whose tokens its plain text has. -/
structure Lexed (scale : Scale) (axis : Axis) (past cs : List Char) (tokens : List Token)
    (words : List (Lexeme Leaf)) : Prop where
  lexes : Lexes cs words
  measured : ∀ leaf, .operand leaf ∈ words → leaf.Measured scale axis (Leaf.value scale axis)
  tokens : tokens = Leaf.tokens (Leaf.value scale axis) words
  unattached : Unattached (fun leaf => leaf.negative (Leaf.value scale axis) = true) words
  opens : ∀ leaf, words.head? = some (.operand leaf) →
    leaf.negative (Leaf.value scale axis) = true → Opens past

namespace Lexed

variable {scale : Scale} {axis : Axis} {past cs : List Char} {tokens : List Token}
    {words : List (Lexeme Leaf)}

theorem nil : Lexed scale axis past [] [] [] where
  lexes := .nil
  measured _ member := absurd member List.not_mem_nil
  tokens := rfl
  unattached := List.isChain_nil
  opens _ first := nomatch first

theorem blank {c : Char} (isBlank : Text.isBlank c = true)
    (lexed : Lexed scale axis (past ++ [c]) cs tokens words) :
    Lexed scale axis past (c :: cs) tokens words where
  lexes := lexed.lexes.blank isBlank
  measured := lexed.measured
  tokens := lexed.tokens
  unattached := lexed.unattached
  opens leaf first negative := (opens_concat_blank isBlank).mp (lexed.opens leaf first negative)

theorem word (word : Lexeme Leaf) (lexed : Lexed scale axis (past ++ word.text) cs tokens words)
    (longest : ∀ other : Lexeme Leaf, other.text <+: word.text ++ cs →
      other.text.length ≤ word.text.length)
    (measured : ∀ leaf, word = .operand leaf → leaf.Measured scale axis (Leaf.value scale axis))
    (opens : ∀ leaf, word = .operand leaf →
      leaf.negative (Leaf.value scale axis) = true → Opens past) :
    Lexed scale axis past (word.text ++ cs)
      ((word.expand (Leaf.negative (Leaf.value scale axis)) (Leaf.size (Leaf.value scale axis))).map
        Lexeme.token ++ tokens)
      (word :: words) where
  lexes := .word word longest lexed.lexes
  measured leaf member := by
    rcases List.mem_cons.mp member with rfl | member
    · exact measured leaf rfl
    · exact lexed.measured leaf member
  tokens := by rw [Leaf.tokens_cons, lexed.tokens]
  unattached := by
    refine List.isChain_cons.mpr ⟨fun next first leaf same negative => ?_, lexed.unattached⟩
    subst same
    exact word.opens_append_text.mp (lexed.opens leaf first negative)
  opens leaf first negative := opens leaf (Option.some.inj first) negative

theorem exists_word_of_ofChar? {c : Char} {token : Token} (here : Token.ofChar? c = some token) :
    ∃ word : Lexeme Leaf, word.text = [c] ∧ ¬word.IsOperand ∧ ∀ negative size,
      (word.expand negative size).map Lexeme.token = [token] := by
  rcases Token.eq_of_ofChar? here with ⟨op, rfl, rfl⟩ | ⟨rfl, rfl⟩ | ⟨rfl, rfl⟩
  · exact ⟨.operator op, rfl, id, fun _ _ => rfl⟩
  · exact ⟨.opening, rfl, id, fun _ _ => rfl⟩
  · exact ⟨.closing, rfl, id, fun _ _ => rfl⟩

theorem single {c : Char} {token : Token} (here : Token.ofChar? c = some token)
    (lexed : Lexed scale axis (past ++ [c]) cs tokens words) :
    ∃ words, Lexed scale axis past (c :: cs) (token :: tokens) words := by
  obtain ⟨word, text, other, expanded⟩ := exists_word_of_ofChar? here
  rw [← text] at lexed
  have all := lexed.word word (fun _ begins => Lexeme.longest_of_not_isOperand other begins)
    (fun leaf same => by subst same; exact absurd trivial other)
    (fun leaf same => by subst same; exact absurd trivial other)
  rw [text, expanded] at all
  exact ⟨_, all⟩

theorem literal {l : Literal} (ends : l.Ends cs)
    (starts : ∀ d, cs.head? = some d → Delimits d ∨ Token.BeginsNumeral d)
    (lexed : Lexed scale axis (past ++ l.text) cs tokens words) :
    Lexed scale axis past (l.text ++ cs) (.number l.value :: tokens)
      (.operand (.literal l) :: words) := by
  have no_suffix (suffix : Suffix) : ¬suffix.letters <+: cs := by
    rintro ⟨more, rfl⟩
    obtain ⟨c, rest, letters, _⟩ := suffix.letters_eq_cons
    have member : c ∈ suffix.letters := letters ▸ List.mem_cons_self
    have apart := Suffix.not_in_number_of_mem member
    rcases starts c (by rw [letters]; rfl) with delimits | begins
    · exact delimits.not_mem_letters suffix member
    · exact Token.not_beginsNumeral apart.1 apart.2.1 begins
  refine lexed.word (.operand (.literal l)) (fun _ => Literal.longest_word ends no_suffix) ?_ ?_
  · intro leaf same
    cases same
    exact ⟨trivial, rfl, False.elim⟩
  · intro leaf same negative
    cases same
    cases negative

theorem length {l : Literal} {suffix : Suffix} {x : Float} (proper : l.Proper)
    (pixels : (Leaf.length l suffix).pixels scale axis = .ok x) (finite : x.isFinite = true)
    (opens : Binary64.isNegative x = true → Opens past)
    (lexed : Lexed scale axis (past ++ (l.text ++ suffix.letters)) cs tokens words) :
    Lexed scale axis past (l.text ++ suffix.letters ++ cs) (Number.tokens x ++ tokens)
      (.operand (.length l suffix) :: words) := by
  have value := Leaf.value_eq pixels
  have all := lexed.word (.operand (.length l suffix)) (fun _ => Leaf.longest_length l suffix) ?_ ?_
  · rwa [Leaf.expand_length, value] at all
  · intro leaf same
    cases same
    exact ⟨proper, by rw [value, pixels], fun _ => by rw [value, finite]⟩
  · intro leaf same negative
    cases same
    exact opens (value ▸ negative)

/-- An undisturbed expression whose plain text is scanned is taken apart into
words with the same tokens. -/
theorem exists_of_replaces {plain : List Char} (replaces : Calc.Replaces scale axis past cs plain)
    (scanned : Token.scan plain = .ok tokens) : ∃ words, Lexed scale axis past cs tokens words := by
  generalize size : cs.length = n
  induction n using Nat.strong_induction_on generalizing past cs plain tokens with
  | _ n ih =>
    subst size
    cases cs with
    | nil =>
      rw [replaces.eq_nil, Token.scan_nil] at scanned
      cases scanned
      exact ⟨[], .nil⟩
    | cons c cs =>
      cases found : Piece.scan? (c :: cs) with
      | some length =>
        obtain ⟨number, suffix, rest⟩ := length
        obtain ⟨l, x, plainRest, rfl, replaced⟩ := replaces.of_length found
        rw [replaced.text] at scanned
        have finite := Number.isFinite_of_scan_write scanned
        have apart := replaced.apart
        rw [Calc.standsApart, Bool.and_eq_true, Bool.not_eq_true', Bool.not_eq_true'] at apart
        rw [Number.scan_write finite (replaced.replaces.ends apart.2)] at scanned
        obtain ⟨more, goes_on, rfl⟩ := exists_of_map_eq_ok scanned
        obtain ⟨words, lexed⟩ :=
          ih rest.length (Piece.scan?_length_lt found) replaced.replaces goes_on rfl
        rw [(Piece.scan?_parts found).1, ← List.append_assoc]
        exact ⟨_, lexed.length replaced.proper replaced.pixels finite replaced.opens⟩
      | none =>
        obtain ⟨plainRest, rfl, behind⟩ := replaces.of_plain found
        rcases Token.scan_cons_eq_ok scanned with ⟨isBlank, goes_on⟩ |
          ⟨token, more, here, goes_on, rfl⟩ |
          ⟨begins, l, after, more, text, ends, goes_on, rfl⟩
        · obtain ⟨words, lexed⟩ := ih cs.length (Nat.lt_succ_self _) behind goes_on rfl
          exact ⟨words, lexed.blank isBlank⟩
        · obtain ⟨words, lexed⟩ := ih cs.length (Nat.lt_succ_self _) behind goes_on rfl
          exact lexed.single here
        · rw [text] at replaces
          obtain ⟨rest, same, behind⟩ := replaces.of_literal found
          obtain ⟨last, atEnd⟩ := exists_getLast? l.numberShape.ne_nil
          have joined := Calc.joins_of_beginsNumeral (l.numberShape.getLast? atEnd)
          obtain ⟨first, starts⟩ :=
            behind.head? (by rw [List.getLast?_append, atEnd]; rfl) joined goes_on
          have ends := Calc.ends_of_head? ends first fun d here =>
            (starts d here).elim (·.not_in_number.2.2) (·.ends_operand.2.1)
          have shorter : rest.length < (c :: cs).length := by
            have some_text := List.length_pos_iff.mpr l.numberShape.ne_nil
            rw [same, List.length_append]
            omega
          obtain ⟨words, lexed⟩ := ih rest.length shorter behind goes_on rfl
          rw [same]
          exact ⟨_, lexed.literal ends starts⟩

end Lexed

end CalcLength
