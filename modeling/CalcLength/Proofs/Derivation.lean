import CalcLength.Proofs.Phrase

namespace CalcLength.Formula

/-- Whether the tokens begin with an operator that is accepted. -/
def StartsWith (accepts : Operator → Bool) (tokens : List Token) : Prop :=
  ∃ op rest, tokens = .operator op :: rest ∧ accepts op = true

theorem not_startsWith_nil (accepts : Operator → Bool) : ¬StartsWith accepts [] := by
  rintro ⟨_, _, same, _⟩
  cases same

theorem startsWith_operator {accepts : Operator → Bool} {op : Operator} {rest : List Token} :
    StartsWith accepts (.operator op :: rest) ↔ accepts op = true := by
  constructor
  · rintro ⟨_, _, same, accepted⟩
    cases same
    exact accepted
  · exact fun accepted => ⟨op, rest, rfl, accepted⟩

theorem isFactorOperator_of_isTermOperator {op : Operator} (term : isTermOperator op = true) :
    isFactorOperator op = false := by
  cases op <;> simp_all [isTermOperator, isFactorOperator]

theorem continueChain_stop {accepts : Operator → Bool} {operand : Reader}
    {bound tokens : List Token} {left : Formula} (stops : ¬StartsWith accepts tokens) :
    continueChain accepts operand bound left tokens = .ok (left, tokens) := by
  unfold continueChain
  split
  · rename_i op rest
    rw [startsWith_operator] at stops
    rw [if_neg stops]
  · rfl

theorem continueChain_next {accepts : Operator → Bool} {operand : Reader}
    {bound rest after : List Token} {op : Operator} {t : Token} {left right : Formula}
    (accepted : accepts op = true) (read : operand rest = .ok (right, after)) :
    continueChain accepts operand (t :: bound) left (.operator op :: rest) =
      continueChain accepts operand bound (.binary op left right) after := by
  simp only [continueChain, accepted, if_true, read]

/-- A sign is taken off, and negates what follows it if it is a minus sign. -/
theorem operand_signed {op : Operator} (accepted : isTermOperator op = true) (nesting : Nat)
    (rest : List Token) :
    operand (nesting + 1) (.operator op :: rest) =
      (operand nesting rest).map fun (formula, rest) =>
        (if op = .subtract then .negate formula else formula, rest) := by
  have signs : signed op = some fun formula => if op = .subtract then .negate formula
      else formula := by
    cases op with
    | add => rfl
    | subtract => rfl
    | multiply => cases accepted
    | divide => cases accepted
  rw [operand.eq_def]
  simp only [signs]
  cases operand nesting rest with
  | ok => rfl
  | error => rfl

end CalcLength.Formula

namespace CalcLength

open Formula

/-- What reads the phrases of a rank that have at most so much nesting. -/
def Rank.reader (nesting : Nat) : Rank → Reader
  | chain .sum => Formula.sum (Formula.operand nesting)
  | chain .product => Formula.chain isFactorOperator (Formula.operand nesting)
  | unary => Formula.operand nesting
  | primary => Formula.operand nesting

/-- Whether what follows a phrase of the rank cannot belong to its last operand. -/
def Rank.Ends (rest : List Token) : Rank → Prop
  | chain .sum => ¬StartsWith isFactorOperator rest
  | _ => True

/-- Whether what follows a phrase of the rank cannot belong to it. -/
def Rank.Closes (rest : List Token) : Rank → Prop
  | chain level => ¬StartsWith level.accepts rest ∧ (chain level).Ends rest
  | _ => True

theorem Level.reader_eq (level : Level) (nesting : Nat) :
    (Rank.chain level).reader nesting = Formula.chain level.accepts
      (level.operand.reader nesting) := by
  cases level <;> rfl

/-- A joining operator ends the operand before it. -/
theorem Level.closes_operator (level : Level) {op : Operator} (accepted : level.accepts op = true)
    (rest : List Token) : level.operand.Closes (.operator op :: rest) := by
  cases level with
  | sum =>
    refine ⟨?_, trivial⟩
    rw [startsWith_operator]
    simp [isFactorOperator_of_isTermOperator accepted, Level.accepts]
  | product => trivial

theorem Level.closes_of_ends {level : Level} {rest : List Token}
    (ends : (Rank.chain level).Ends rest) : level.operand.Closes rest := by
  cases level with
  | sum => exact ⟨ends, trivial⟩
  | product => trivial

theorem Level.ends_operator {level : Level} {op : Operator} (accepted : level.accepts op = true)
    (rest : List Token) : (Rank.chain level).Ends (.operator op :: rest) := by
  cases level with
  | sum => exact (Level.sum.closes_operator accepted rest).1
  | product => trivial

namespace Phrase

@[simp] theorem tokens_single {level : Level} (only : Phrase Float level.operand) :
    (single only).tokens = only.tokens := rfl

@[simp] theorem tokens_join {level : Level} (left : Phrase Float (.chain level)) (op : Operator)
    (accepted : level.accepts op = true) (right : Phrase Float level.operand) :
    (join left op accepted right).tokens = left.tokens ++ .operator op :: right.tokens := by
  simp [tokens, words, Lexeme.token]

@[simp] theorem tokens_signed (op : Operator) (accepted : isTermOperator op = true)
    (inner : Phrase Float .unary) :
    (signed op accepted inner).tokens = .operator op :: inner.tokens := rfl

@[simp] theorem tokens_unsigned (inner : Phrase Float .primary) :
    (unsigned inner).tokens = inner.tokens := rfl

@[simp] theorem tokens_operand (x : Float) : (operand x).tokens = [.number x] := rfl

@[simp] theorem tokens_group (inner : Phrase Float (.chain .sum)) :
    (group inner).tokens = .opening :: inner.tokens ++ [.closing] := by
  simp [tokens, words, Lexeme.token]

/-- What reading a phrase comes to: of a chain, all that is left is to
go on with what follows it. -/
def IsReadBy (nesting : Nat) {r : Rank} (p : Phrase Float r) : Prop :=
  match r with
  | .chain level => ∀ rest, (Rank.chain level).Ends rest → ∃ bound, rest.length ≤ bound.length ∧
      (Rank.chain level).reader nesting (p.tokens ++ rest) =
        continueChain level.accepts (level.operand.reader nesting) bound p.tree rest
  | r => ∀ rest, r.reader nesting (p.tokens ++ rest) = .ok (p.tree, rest)

theorem IsReadBy.apply {nesting : Nat} {r : Rank} {p : Phrase Float r} (read : p.IsReadBy nesting)
    {rest : List Token} (closes : r.Closes rest) :
    r.reader nesting (p.tokens ++ rest) = .ok (p.tree, rest) := by
  cases r with
  | chain level =>
    obtain ⟨_, _, goes_on⟩ := read rest closes.2
    rw [goes_on, continueChain_stop closes.1]
  | unary => exact read rest
  | primary => exact read rest

theorem closes_closing (level : Level) (rest : List Token) :
    (Rank.chain level).Closes (.closing :: rest) := by
  have stops (accepts : Operator → Bool) : ¬StartsWith accepts (.closing :: rest) := by
    rintro ⟨_, _, same, _⟩
    cases same
  cases level with
  | sum => exact ⟨stops _, stops _⟩
  | product => exact ⟨stops _, trivial⟩

theorem closes_nil (level : Level) : (Rank.chain level).Closes [] := by
  cases level with
  | sum => exact ⟨not_startsWith_nil _, not_startsWith_nil _⟩
  | product => exact ⟨not_startsWith_nil _, trivial⟩

/-- Every phrase within the nesting allowed is read as its own tree. -/
theorem isReadBy {r : Rank} (p : Phrase Float r) {nesting : Nat} (shallow : p.depth ≤ nesting) :
    p.IsReadBy nesting := by
  induction p generalizing nesting with
  | @single level only ih =>
    intro rest ends
    have first := (ih shallow).apply (Level.closes_of_ends ends)
    refine ⟨rest, Nat.le_refl _, ?_⟩
    rw [Level.reader_eq, tokens_single, Formula.chain, first]
    rfl
  | @join level left op accepted right ihLeft ihRight =>
    intro rest ends
    obtain ⟨leftShallow, rightShallow⟩ := Nat.max_le.mp shallow
    obtain ⟨bound, long, goes_on⟩ := ihLeft leftShallow (.operator op :: (right.tokens ++ rest))
      (Level.ends_operator accepted _)
    have last := (ihRight rightShallow).apply (Level.closes_of_ends ends)
    cases bound with
    | nil => simp at long
    | cons t bound =>
      refine ⟨bound, ?_, ?_⟩
      · simp only [List.length_cons, List.length_append] at long
        omega
      · rw [tokens_join, List.append_assoc, List.cons_append, goes_on,
          continueChain_next accepted last]
        rfl
  | signed op accepted inner ih =>
    intro rest
    cases nesting with
    | zero => cases shallow
    | succ nesting =>
      have read := ih (Nat.le_of_succ_le_succ shallow) rest
      simp only [Rank.reader] at read ⊢
      rw [tokens_signed, List.cons_append, operand_signed accepted, read]
      rfl
  | unsigned inner ih => exact ih shallow
  | operand x =>
    intro rest
    simp only [Rank.reader, tokens_operand, List.singleton_append, Formula.operand]
    rfl
  | group inner ih =>
    intro rest
    cases nesting with
    | zero => cases shallow
    | succ nesting =>
      have read := (ih (Nat.le_of_succ_le_succ shallow)).apply (closes_closing .sum rest)
      simp only [Rank.reader] at read ⊢
      rw [tokens_group, List.append_assoc, List.cons_append, List.singleton_append,
        Formula.operand, Formula.group]
      simp only [read]
      rfl

/-- A sentence is read to its end. -/
theorem reader_tokens (s : Sentence Float) {nesting : Nat} (shallow : s.depth ≤ nesting) :
    (Rank.chain .sum).reader nesting s.tokens = .ok (s.tree, []) := by
  have read := (s.isReadBy shallow).apply (closes_nil .sum)
  rwa [List.append_nil] at read

end Phrase

/-- Whether some phrase of the rank, within the nesting allowed, consists of
these tokens and has this tree. -/
def Rank.Derives (nesting : Nat) (r : Rank) (tokens : List Token) (formula : Formula) : Prop :=
  ∃ p : Phrase Float r, p.tokens = tokens ∧ p.depth ≤ nesting ∧ p.tree = formula

/-- Whether all that a reader takes from the head of some tokens is derived from the rank. -/
def Rank.Takes (nesting : Nat) (r : Rank) (read : Reader) : Prop :=
  ∀ tokens formula rest, read tokens = .ok (formula, rest) → ∃ taken, tokens = taken ++ rest ∧
    r.Derives nesting taken formula

theorem Level.continueChain_takes {level : Level} {nesting : Nat} {read : Reader}
    (takes : level.operand.Takes nesting read) {bound tokens rest : List Token} {formula : Formula}
    (left : Phrase Float (.chain level)) (shallow : left.depth ≤ nesting)
    (done : continueChain level.accepts read bound left.tree tokens = .ok (formula, rest)) :
    ∃ taken, left.tokens ++ tokens = taken ++ rest ∧
      (Rank.chain level).Derives nesting taken formula := by
  have stopped {tokens : List Token} {left : Phrase Float (.chain level)}
      (shallow : left.depth ≤ nesting)
      (done : (.ok (left.tree, tokens) : Except SyntaxFault (Formula × List Token)) =
        .ok (formula, rest)) :
      ∃ taken, left.tokens ++ tokens = taken ++ rest ∧
        (Rank.chain level).Derives nesting taken formula := by
    cases done
    exact ⟨left.tokens, rfl, left, rfl, shallow, rfl⟩
  induction bound generalizing left tokens with
  | nil => exact stopped shallow (by simpa only [continueChain] using done)
  | cons t bound ih =>
    unfold continueChain at done
    split at done
    · rename_i bound' op after same
      cases same
      split at done
      · rename_i accepted
        split at done
        · rename_i right after' read_right
          obtain ⟨taken, rfl, next, rfl, nextShallow, rfl⟩ := takes _ _ _ read_right
          obtain ⟨all, same, derived⟩ :=
            ih (left.join op accepted next) (Nat.max_le.mpr ⟨shallow, nextShallow⟩) done
          refine ⟨all, ?_, derived⟩
          rw [← same, Phrase.tokens_join, List.append_assoc, List.cons_append]
        · cases done
      · exact stopped shallow done
    · exact stopped shallow done

theorem Level.chain_takes (level : Level) {nesting : Nat} {read : Reader}
    (takes : level.operand.Takes nesting read) :
    (Rank.chain level).Takes nesting (Formula.chain level.accepts read) := by
  intro tokens formula rest done
  unfold Formula.chain at done
  split at done
  · rename_i left after read_left
    obtain ⟨taken, rfl, first, rfl, shallow, rfl⟩ := takes _ _ _ read_left
    exact continueChain_takes takes (.single first) shallow done
  · cases done

theorem Rank.derives_number (nesting : Nat) (x : Float) :
    Rank.unary.Derives nesting [.number x] (.number x) :=
  ⟨.unsigned (.operand x), rfl, Nat.zero_le _, rfl⟩

theorem Rank.Derives.signed {nesting : Nat} {tokens : List Token} {formula : Formula}
    {op : Operator} (accepted : isTermOperator op = true)
    (derived : Rank.unary.Derives nesting tokens formula) :
    Rank.unary.Derives (nesting + 1) (.operator op :: tokens)
      (if op = .subtract then .negate formula else formula) := by
  obtain ⟨inner, rfl, shallow, rfl⟩ := derived
  exact ⟨.signed op accepted inner, rfl, Nat.succ_le_succ shallow, rfl⟩

theorem Rank.Derives.group {nesting : Nat} {tokens : List Token} {formula : Formula}
    (derived : (Rank.chain .sum).Derives nesting tokens formula) :
    Rank.unary.Derives (nesting + 1) (.opening :: tokens ++ [.closing]) formula := by
  obtain ⟨inner, rfl, shallow, rfl⟩ := derived
  exact ⟨.unsigned (.group inner), Phrase.tokens_group inner, Nat.succ_le_succ shallow, rfl⟩

/-- What is read as an operand within the nesting allowed is derived within it. -/
theorem Rank.operand_takes (nesting : Nat) :
    Rank.unary.Takes nesting (Formula.operand nesting) := by
  induction nesting with
  | zero =>
    intro tokens formula rest done
    rw [operand.eq_def] at done
    split at done
    · rename_i x after
      cases done
      exact ⟨[.number x], rfl, derives_number 0 x⟩
    · split at done <;> simp_all
    · cases done
    · rename_i same
      cases same
    · cases done
    · cases done
  | succ nesting ih =>
    intro tokens formula rest done
    match tokens with
    | [] => cases done
    | .number x :: after =>
      cases done
      exact ⟨[.number x], rfl, derives_number _ x⟩
    | .closing :: after => cases done
    | .opening :: after =>
      rw [operand, Formula.group] at done
      split at done
      · rename_i inner after' read_inner
        cases done
        obtain ⟨taken, rfl, derived⟩ :=
          Level.sum.chain_takes (Level.product.chain_takes ih) _ _ _ read_inner
        exact ⟨.opening :: taken ++ [.closing], by simp, derived.group⟩
      · cases done
      · cases done
      · cases done
    | .operator op :: after =>
      by_cases accepted : isTermOperator op = true
      · rw [operand_signed accepted] at done
        cases read_inner : Formula.operand nesting after with
        | error fault => rw [read_inner] at done; cases done
        | ok inner =>
          rw [read_inner] at done
          cases done
          obtain ⟨taken, rfl, derived⟩ := ih _ _ _ read_inner
          exact ⟨.operator op :: taken, rfl, derived.signed accepted⟩
      · cases op with
        | add => exact absurd rfl accepted
        | subtract => exact absurd rfl accepted
        | multiply => cases done
        | divide => cases done

theorem Rank.reader_takes (nesting : Nat) :
    (Rank.chain .sum).Takes nesting ((Rank.chain .sum).reader nesting) :=
  Level.sum.chain_takes (Level.product.chain_takes (operand_takes nesting))

namespace Formula

/-- Every sentence within the nesting allowed is parsed as its own tree. -/
theorem parse_tokens {s : Sentence Float} (shallow : s.depth ≤ maxNesting) :
    parse s.tokens = .ok s.tree := by
  have read := s.reader_tokens shallow
  rw [Rank.reader] at read
  rw [parse, read]

/-- What is parsed is a sentence within the nesting allowed. -/
theorem exists_sentence_of_parse {tokens : List Token} {formula : Formula}
    (parsed : parse tokens = .ok formula) :
    ∃ s : Sentence Float, s.tokens = tokens ∧ s.depth ≤ maxNesting ∧ s.tree = formula := by
  unfold parse at parsed
  split at parsed
  · rename_i read
    cases parsed
    obtain ⟨taken, rfl, derived⟩ := Rank.reader_takes _ _ _ _ read
    rw [List.append_nil]
    exact derived
  · cases parsed
  · cases parsed

end Formula

end CalcLength
