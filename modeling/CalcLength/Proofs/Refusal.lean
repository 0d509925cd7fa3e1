import CalcLength.Proofs.Nesting

namespace CalcLength

open Formula

namespace Formula

theorem operand_nil (nesting : Nat) : operand nesting [] = .error .unexpectedEnd := by
  cases nesting <;> rfl

theorem operand_number (nesting : Nat) (x : Float) (rest : List Token) :
    operand nesting (.number x :: rest) = .ok (number x, rest) := by
  cases nesting <;> rfl

theorem operand_closing (nesting : Nat) (rest : List Token) :
    operand nesting (.closing :: rest) = .error .unexpectedToken := by
  cases nesting <;> rfl

end Formula

/-- Whether tokens begin some phrase of the rank within the nesting allowed. -/
def Rank.Begins (nesting : Nat) (r : Rank) (tokens : List Token) : Prop :=
  ∃ p : Phrase Float r, tokens <+: p.tokens ∧ p.depth ≤ nesting

/-- How a rank's phrases are refused. What is read begins a phrase, and nothing that follows it and
the token behind it makes a difference any more: a sign or parenthesis too many would begin a phrase
if there were no limit, a token out of place would not. -/
inductive Rank.Refuses (nesting : Nat) (r : Rank) : List Token → SyntaxFault → Prop
  | ended {tokens : List Token} (begins : r.Begins nesting tokens) :
      Refuses nesting r tokens .unexpectedEnd
  | deep {taken rest : List Token} {t : Token} (begins : r.Begins nesting taken)
      (goes_on : ∃ deeper, r.Begins deeper (taken ++ [t]))
      (always : ∀ rest, r.reader nesting (taken ++ t :: rest) = .error .nestedTooDeeply) :
      Refuses nesting r (taken ++ t :: rest) .nestedTooDeeply
  | misplaced {taken rest : List Token} {t : Token} (begins : r.Begins nesting taken)
      (always : ∀ deeper, nesting ≤ deeper →
        ∀ rest, r.reader deeper (taken ++ t :: rest) = .error .unexpectedToken) :
      Refuses nesting r (taken ++ t :: rest) .unexpectedToken

namespace Rank

theorem Begins.mono {r : Rank} {nesting deeper : Nat} {tokens : List Token}
    (begins : r.Begins nesting tokens) (le : nesting ≤ deeper) : r.Begins deeper tokens := by
  obtain ⟨p, first, shallow⟩ := begins
  exact ⟨p, first, Nat.le_trans shallow le⟩

theorem begins_nil (nesting : Nat) : unary.Begins nesting [] :=
  ⟨.unsigned (.operand 0), List.nil_prefix, Nat.zero_le _⟩

/-- A part is refused as its whole is. -/
theorem Refuses.lift {q r : Rank} {nesting : Nat} {tokens : List Token} {fault : SyntaxFault}
    (more : Nat) (front : List Token) (refuses : q.Refuses nesting tokens fault)
    (begins : ∀ deeper, nesting ≤ deeper → ∀ tokens, q.Begins deeper tokens →
      r.Begins (deeper + more) (front ++ tokens))
    (fails : ∀ deeper, nesting ≤ deeper → ∀ tokens fault, q.reader deeper tokens = .error fault →
      r.reader (deeper + more) (front ++ tokens) = .error fault) :
    r.Refuses (nesting + more) (front ++ tokens) fault := by
  cases refuses with
  | ended first => exact .ended (begins nesting (Nat.le_refl _) _ first)
  | @deep taken rest t first goes_on always =>
    obtain ⟨deeper, goes_on⟩ := goes_on
    have goes_on :=
      begins (max nesting deeper) (Nat.le_max_left ..) _ (goes_on.mono (Nat.le_max_right ..))
    rw [← List.append_assoc] at goes_on ⊢
    refine .deep (begins nesting (Nat.le_refl _) _ first) ⟨_, goes_on⟩ fun rest => ?_
    rw [List.append_assoc]
    exact fails nesting (Nat.le_refl _) _ _ (always rest)
  | @misplaced taken rest t first always =>
    rw [← List.append_assoc]
    refine .misplaced (begins nesting (Nat.le_refl _) _ first) fun deeper le rest => ?_
    obtain ⟨extra, rfl⟩ := Nat.exists_eq_add_of_le le
    rw [List.append_assoc, Nat.add_right_comm]
    exact fails (nesting + extra) (Nat.le_add_right ..) _ _ (always _ (Nat.le_add_right ..) rest)

end Rank

theorem Level.begins_single {level : Level} {nesting : Nat} {tokens : List Token}
    (begins : level.operand.Begins nesting tokens) : (Rank.chain level).Begins nesting tokens := by
  obtain ⟨p, first, shallow⟩ := begins
  exact ⟨.single p, first, shallow⟩

theorem Level.begins_join {level : Level} {nesting : Nat} {left : Phrase Float (.chain level)}
    {op : Operator} (accepted : level.accepts op = true) (shallowLeft : left.depth ≤ nesting)
    {tokens : List Token} (begins : level.operand.Begins nesting tokens) :
    (Rank.chain level).Begins nesting (left.tokens ++ .operator op :: tokens) := by
  obtain ⟨p, ⟨more, whole⟩, shallow⟩ := begins
  refine ⟨left.join op accepted p, ⟨more, ?_⟩, Nat.max_le.mpr ⟨shallowLeft, shallow⟩⟩
  rw [Phrase.tokens_join, ← whole, List.append_assoc, List.cons_append]

namespace Level

variable {level : Level} {nesting : Nat}

/-- A chain is refused by one of its operands. -/
theorem continueChain_refuses (takes : level.operand.Takes nesting (level.operand.reader nesting))
    (refuses : ∀ tokens fault, level.operand.reader nesting tokens = .error fault →
      level.operand.Refuses nesting tokens fault)
    {bound tokens : List Token} {fault : SyntaxFault} (left : Phrase Float (.chain level))
    (shallow : left.depth ≤ nesting)
    (failed : continueChain level.accepts (level.operand.reader nesting) bound
      left.tree tokens = .error fault) :
    (Rank.chain level).Refuses nesting (left.tokens ++ tokens) fault := by
  induction bound generalizing left tokens with
  | nil => cases failed
  | cons t bound ih =>
    unfold continueChain at failed
    split at failed
    · rename_i bound' op after same
      cases same
      split at failed
      · rename_i accepted
        split at failed
        · rename_i right after' read_right
          obtain ⟨taken, rfl, next, rfl, nextShallow, rfl⟩ := takes _ _ _ read_right
          have refused :=
            ih (left.join op accepted next) (Nat.max_le.mpr ⟨shallow, nextShallow⟩) failed
          rwa [Phrase.tokens_join, List.append_assoc, List.cons_append] at refused
        · rename_i fault' fails
          cases failed
          have lifted := (refuses _ _ fails).lift (r := .chain level) 0
            (left.tokens ++ [.operator op])
            (fun deeper le tokens begins => ?_) (fun deeper le tokens fault fails => ?_)
          · rwa [List.append_assoc] at lifted
          · rw [List.append_assoc]
            exact begins_join accepted (Nat.le_trans shallow le) begins
          · rw [List.append_assoc]
            exact left.reader_error_of_right accepted (Nat.le_trans shallow le) fails
      · cases failed
    · cases failed

theorem chain_refuses (takes : level.operand.Takes nesting (level.operand.reader nesting))
    (refuses : ∀ tokens fault, level.operand.reader nesting tokens = .error fault →
      level.operand.Refuses nesting tokens fault)
    {tokens : List Token} {fault : SyntaxFault}
    (failed : (Rank.chain level).reader nesting tokens = .error fault) :
    (Rank.chain level).Refuses nesting tokens fault := by
  rw [reader_eq, Formula.chain] at failed
  split at failed
  · rename_i left after read_left
    obtain ⟨taken, rfl, first, rfl, shallow, rfl⟩ := takes _ _ _ read_left
    exact continueChain_refuses takes refuses (.single first) shallow failed
  · rename_i fault' fails
    cases failed
    refine (refuses _ _ fails).lift 0 [] (fun _ _ _ => begins_single)
      fun deeper _ tokens fault fails => ?_
    rw [reader_eq]
    exact chain_error fails

end Level

/-- Where a chain is read to its end, it could not have gone on. -/
theorem Level.continueChain_closes {level : Level} {nesting : Nat}
    (takes : level.operand.Takes nesting (level.operand.reader nesting))
    (closes : ∀ tokens formula rest, level.operand.reader nesting tokens = .ok (formula, rest) →
      level.operand.Closes rest)
    {bound tokens rest : List Token} {left formula : Formula} (long : tokens.length ≤ bound.length)
    (closed : level.operand.Closes tokens)
    (done : continueChain level.accepts (level.operand.reader nesting) bound
      left tokens = .ok (formula, rest)) :
    ¬StartsWith level.accepts rest ∧ level.operand.Closes rest := by
  induction bound generalizing left tokens with
  | nil =>
    rw [List.eq_nil_of_length_eq_zero (Nat.le_zero.mp long)] at done closed
    cases done
    exact ⟨not_startsWith_nil _, closed⟩
  | cons t bound ih =>
    unfold continueChain at done
    split at done
    · rename_i bound' op after same
      cases same
      split at done
      · split at done
        · rename_i right after' read_right
          obtain ⟨taken, rfl, _⟩ := takes _ _ _ read_right
          refine ih ?_ (closes _ _ _ read_right) done
          simp only [List.length_cons, List.length_append] at long
          omega
        · cases done
      · rename_i refused
        cases done
        exact ⟨(not_congr startsWith_operator).mpr refused, closed⟩
    · rename_i no_operator
      cases done
      refine ⟨?_, closed⟩
      rintro ⟨op, after, rfl, _⟩
      exact no_operator _ _ _ _ rfl rfl

theorem Level.chain_closes {level : Level} {nesting : Nat}
    (takes : level.operand.Takes nesting (level.operand.reader nesting))
    (closes : ∀ tokens formula rest, level.operand.reader nesting tokens = .ok (formula, rest) →
      level.operand.Closes rest)
    {tokens rest : List Token} {formula : Formula}
    (done : (Rank.chain level).reader nesting tokens = .ok (formula, rest)) :
    (Rank.chain level).Closes rest := by
  rw [reader_eq, Formula.chain] at done
  split at done
  · rename_i left after read_left
    obtain ⟨no_operator, closed⟩ :=
      continueChain_closes takes closes (Nat.le_refl _) (closes _ _ _ read_left) done
    cases level with
    | sum => exact ⟨no_operator, closed.1⟩
    | product => exact ⟨no_operator, trivial⟩
  · cases done

namespace Rank

theorem sum_closes {nesting : Nat} {tokens rest : List Token} {formula : Formula}
    (done : Formula.sum (Formula.operand nesting) tokens = .ok (formula, rest)) :
    (chain .sum).Closes rest :=
  Level.sum.chain_closes (Level.product.chain_takes (operand_takes nesting))
    (fun _ _ _ => Level.product.chain_closes (operand_takes nesting) fun _ _ _ _ => trivial) done

/-- Only the first token decides whether a phrase could go on. -/
theorem Closes.of_head {r : Rank} {t : Token} {rest : List Token} (closes : r.Closes (t :: rest))
    (rest' : List Token) : r.Closes (t :: rest') := by
  have starts {accepts : Operator → Bool} (stops : ¬StartsWith accepts (t :: rest)) :
      ¬StartsWith accepts (t :: rest') := by
    rintro ⟨op, _, same, accepted⟩
    cases same
    exact stops ⟨op, rest, rfl, accepted⟩
  cases r with
  | chain level =>
    refine ⟨starts closes.1, ?_⟩
    cases level with
    | sum => exact starts closes.2
    | product => trivial
  | unary => trivial
  | primary => trivial

theorem Begins.signed {nesting : Nat} {tokens : List Token} {op : Operator}
    (accepted : isTermOperator op = true) (begins : unary.Begins nesting tokens) :
    unary.Begins (nesting + 1) (.operator op :: tokens) := by
  obtain ⟨p, first, shallow⟩ := begins
  exact ⟨.signed op accepted p, List.cons_prefix_cons.mpr ⟨rfl, first⟩, Nat.succ_le_succ shallow⟩

theorem Begins.group {nesting : Nat} {tokens : List Token}
    (begins : (chain .sum).Begins nesting tokens) :
    unary.Begins (nesting + 1) (.opening :: tokens) := by
  obtain ⟨p, first, shallow⟩ := begins
  refine ⟨.unsigned (.group p), ?_, Nat.succ_le_succ shallow⟩
  rw [Phrase.tokens_unsigned, Phrase.tokens_group, List.cons_append]
  exact List.cons_prefix_cons.mpr ⟨rfl, first.trans (List.prefix_append _ _)⟩

theorem Begins.sum {nesting : Nat} {tokens : List Token} (begins : unary.Begins nesting tokens) :
    (chain .sum).Begins nesting tokens :=
  Level.sum.begins_single (Level.product.begins_single begins)

/-- No operand starts with such a token, at any depth. -/
theorem refuses_first {t : Token}
    (always : ∀ deeper rest, Formula.operand deeper (t :: rest) = .error .unexpectedToken)
    (nesting : Nat) (rest : List Token) : unary.Refuses nesting (t :: rest) .unexpectedToken := by
  rw [← List.nil_append (t :: rest)]
  exact .misplaced (begins_nil nesting) fun deeper _ rest => always deeper rest

/-- An operand starts with such a token, but there may be none at all any more. -/
theorem refuses_deep {t : Token} (starts : unary.Begins 1 [t])
    (always : ∀ rest, Formula.operand 0 (t :: rest) = .error .nestedTooDeeply) (rest : List Token) :
    unary.Refuses 0 (t :: rest) .nestedTooDeeply := by
  rw [← List.nil_append (t :: rest)]
  exact .deep (begins_nil 0) ⟨1, starts⟩ always

theorem group_refuses {nesting : Nat}
    (refuses : ∀ tokens fault, Formula.operand nesting tokens = .error fault →
      unary.Refuses nesting tokens fault)
    {tokens : List Token} {fault : SyntaxFault}
    (failed : Formula.group (Formula.sum (Formula.operand nesting)) tokens = .error fault) :
    unary.Refuses (nesting + 1) (.opening :: tokens) fault := by
  unfold Formula.group at failed
  split at failed
  · cases failed
  · rename_i read_inner
    cases failed
    obtain ⟨taken, rfl, p, rfl, shallow, _⟩ := reader_takes nesting _ _ _ read_inner
    rw [List.append_nil]
    exact .ended (Begins.group ⟨p, List.prefix_refl _, shallow⟩)
  · rename_i formula t after no_closing read_inner
    cases failed
    obtain ⟨taken, rfl, p, rfl, shallow, _⟩ := reader_takes nesting _ _ _ read_inner
    have closes := sum_closes read_inner
    rw [← List.cons_append]
    refine .misplaced (Begins.group ⟨p, List.prefix_refl _, shallow⟩) fun deeper le rest => ?_
    obtain ⟨extra, rfl⟩ := Nat.exists_eq_add_of_le' le
    have read := (p.isReadBy (Nat.le_trans shallow (Nat.le_add_left nesting extra))).apply
      (closes.of_head rest)
    rw [reader] at read
    show Formula.group (Formula.sum (Formula.operand (extra + nesting))) (p.tokens ++ t :: rest) =
      .error .unexpectedToken
    unfold Formula.group
    rw [read]
    split
    · rename_i same
      cases same
      exact absurd rfl no_closing
    · rename_i same
      cases same
    · rfl
    · rename_i same
      cases same
  · rename_i fails
    cases failed
    have chained : (chain .sum).Refuses nesting tokens fault :=
      Level.sum.chain_refuses (Level.product.chain_takes (operand_takes nesting))
        (fun _ _ => Level.product.chain_refuses (operand_takes nesting) refuses) fails
    refine chained.lift (r := unary) 1 [.opening] (fun _ _ _ => Begins.group)
      fun deeper _ tokens fault fails => ?_
    simp only [reader] at fails ⊢
    rw [List.singleton_append, Formula.operand, Formula.group, fails]

theorem operator_refuses {nesting : Nat} {op : Operator} {tokens : List Token} {fault : SyntaxFault}
    (refuses : ∀ inner, inner < nesting → ∀ tokens fault,
      Formula.operand inner tokens = .error fault → unary.Refuses inner tokens fault)
    (failed : Formula.operand nesting (.operator op :: tokens) = .error fault) :
    unary.Refuses nesting (.operator op :: tokens) fault := by
  by_cases accepted : isTermOperator op = true
  · cases nesting with
    | zero =>
      rw [operand_zero_signed accepted] at failed
      cases failed
      exact refuses_deep ((begins_nil 0).signed accepted) (operand_zero_signed accepted) _
    | succ nesting =>
      rw [operand_signed accepted] at failed
      cases fails : Formula.operand nesting tokens with
      | ok read =>
        rw [fails] at failed
        cases failed
      | error fault' =>
        rw [fails] at failed
        cases failed
        refine (refuses nesting (Nat.lt_succ_self _) _ _ fails).lift (r := unary) 1 [.operator op]
          (fun _ _ _ => Begins.signed accepted) fun deeper _ tokens fault fails => ?_
        simp only [reader] at fails ⊢
        rw [List.singleton_append, operand_signed accepted, fails]
        rfl
  · have always (deeper : Nat) (rest : List Token) :
        Formula.operand deeper (.operator op :: rest) = .error .unexpectedToken := by
      cases op with
      | add => exact absurd rfl accepted
      | subtract => exact absurd rfl accepted
      | multiply => cases deeper <;> rfl
      | divide => cases deeper <;> rfl
    rw [always] at failed
    cases failed
    exact refuses_first always _ _

/-- What is not read as an operand within the nesting allowed is refused where it stops
being the beginning of one. -/
theorem operand_refuses (nesting : Nat) {tokens : List Token} {fault : SyntaxFault}
    (failed : Formula.operand nesting tokens = .error fault) :
    unary.Refuses nesting tokens fault := by
  induction nesting using Nat.strongRecOn generalizing tokens fault with
  | ind nesting ih =>
    match tokens, nesting with
    | [], nesting =>
      rw [operand_nil] at failed
      cases failed
      exact .ended (begins_nil _)
    | .number x :: rest, nesting =>
      rw [operand_number] at failed
      cases failed
    | .closing :: rest, nesting =>
      rw [operand_closing] at failed
      cases failed
      exact refuses_first operand_closing _ _
    | .opening :: rest, 0 =>
      cases failed
      exact refuses_deep (begins_nil 0).sum.group (fun _ => rfl) _
    | .opening :: rest, nesting + 1 =>
      exact group_refuses (fun _ _ => ih nesting (Nat.lt_succ_self _)) failed
    | .operator op :: rest, nesting =>
      exact operator_refuses (fun inner less _ _ => ih inner less) failed

theorem sum_refuses {nesting : Nat} {tokens : List Token} {fault : SyntaxFault}
    (failed : (chain .sum).reader nesting tokens = .error fault) :
    (chain .sum).Refuses nesting tokens fault :=
  Level.sum.chain_refuses (Level.product.chain_takes (operand_takes nesting))
    (fun _ _ => Level.product.chain_refuses (operand_takes nesting) fun _ _ =>
      operand_refuses nesting) failed

end Rank

end CalcLength
