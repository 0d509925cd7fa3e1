import CalcLength.Proofs.Derivation

namespace CalcLength

open Formula

namespace Formula

theorem continueChain_error {accepts : Operator → Bool} {operand : Reader} {bound rest : List Token}
    {op : Operator} {t : Token} {left : Formula} {fault : SyntaxFault}
    (accepted : accepts op = true) (fails : operand rest = .error fault) :
    continueChain accepts operand (t :: bound) left (.operator op :: rest) = .error fault := by
  simp only [continueChain, accepted, if_true, fails]

theorem chain_error {accepts : Operator → Bool} {operand : Reader} {tokens : List Token}
    {fault : SyntaxFault} (fails : operand tokens = .error fault) :
    chain accepts operand tokens = .error fault := by
  rw [chain, fails]

/-- A sign too many is refused. -/
theorem operand_zero_signed {op : Operator} (accepted : isTermOperator op = true)
    (rest : List Token) : operand 0 (.operator op :: rest) = .error .nestedTooDeeply := by
  cases op with
  | add => rfl
  | subtract => rfl
  | multiply => cases accepted
  | divide => cases accepted

end Formula

namespace Phrase

/-- A chain is refused as the first operand is that cannot be read. -/
theorem reader_error_of_right {level : Level} (left : Phrase Float (.chain level)) {op : Operator}
    (accepted : level.accepts op = true) {nesting : Nat} (shallow : left.depth ≤ nesting)
    {rest : List Token} {fault : SyntaxFault}
    (fails : level.operand.reader nesting rest = .error fault) :
    (Rank.chain level).reader nesting (left.tokens ++ .operator op :: rest) = .error fault := by
  obtain ⟨bound, long, goes_on⟩ :=
    left.isReadBy shallow (.operator op :: rest) (Level.ends_operator accepted _)
  cases bound with
  | nil => simp at long
  | cons t bound => rw [goes_on, continueChain_error accepted fails]

/-- A phrase nested deeper than allowed is refused for its depth, whatever follows it: all that
stands before the first sign or parenthesis too many is read. -/
theorem refused_of_deep {r : Rank} (p : Phrase Float r) {nesting : Nat} (deep : nesting < p.depth)
    (rest : List Token) : r.reader nesting (p.tokens ++ rest) = .error .nestedTooDeeply := by
  induction p generalizing nesting rest with
  | @single level only ih =>
    rw [Level.reader_eq, tokens_single]
    exact chain_error (ih deep rest)
  | @join level left op accepted right ihLeft ihRight =>
    rw [tokens_join, List.append_assoc, List.cons_append]
    by_cases deepLeft : nesting < left.depth
    · exact ihLeft deepLeft _
    · have deepRight : nesting < right.depth :=
        Nat.lt_of_not_le fun shallow =>
          Nat.not_le_of_lt deep (Nat.max_le.mpr ⟨Nat.le_of_not_lt deepLeft, shallow⟩)
      exact left.reader_error_of_right accepted (Nat.le_of_not_lt deepLeft) (ihRight deepRight rest)
  | signed op accepted inner ih =>
    rw [tokens_signed, List.cons_append]
    cases nesting with
    | zero => exact operand_zero_signed accepted _
    | succ nesting =>
      have fails := ih (Nat.lt_of_succ_lt_succ deep) rest
      simp only [Rank.reader] at fails ⊢
      rw [operand_signed accepted, fails]
      rfl
  | unsigned inner ih => exact ih deep rest
  | operand x => exact absurd deep (Nat.not_lt_zero _)
  | group inner ih =>
    rw [tokens_group, List.append_assoc, List.cons_append]
    cases nesting with
    | zero => rfl
    | succ nesting =>
      have fails := ih (Nat.lt_of_succ_lt_succ deep) ([.closing] ++ rest)
      simp only [Rank.reader] at fails ⊢
      rw [Formula.operand, Formula.group, fails]

end Phrase

namespace Formula

/-- A sentence is parsed as its own tree, or refused for its depth. -/
theorem parse_sentence (s : Sentence Float) :
    parse s.tokens = if s.depth ≤ maxNesting then .ok s.tree else .error .nestedTooDeeply := by
  split
  · rename_i shallow
    exact parse_tokens shallow
  · rename_i deep
    have refused := s.refused_of_deep (Nat.lt_of_not_le deep) []
    rw [List.append_nil, Rank.reader] at refused
    rw [parse, refused]

end Formula

end CalcLength
