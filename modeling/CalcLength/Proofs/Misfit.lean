import CalcLength.Proofs.Refusal

namespace CalcLength

namespace Formula

/-- Whether tokens can be completed to a sentence with at most so much nesting. -/
def IsCompletable (nesting : Nat) (tokens : List Token) : Prop :=
  ∃ s : Sentence Float, tokens <+: s.tokens ∧ s.depth ≤ nesting

theorem IsCompletable.of_isPrefix {nesting : Nat} {first tokens : List Token}
    (completable : IsCompletable nesting tokens) (begins : first <+: tokens) :
    IsCompletable nesting first := by
  obtain ⟨s, completed, shallow⟩ := completable
  exact ⟨s, begins.trans completed, shallow⟩

/-- What is completed is parsed. -/
theorem isCompletable_iff {tokens : List Token} :
    IsCompletable maxNesting tokens ↔ ∃ more formula, parse (tokens ++ more) = .ok formula := by
  constructor
  · rintro ⟨s, ⟨more, completed⟩, shallow⟩
    exact ⟨more, s.tree, by rw [completed, parse_tokens shallow]⟩
  · rintro ⟨more, formula, parsed⟩
    obtain ⟨s, completed, shallow, _⟩ := exists_sentence_of_parse parsed
    exact ⟨s, ⟨more, completed.symm⟩, shallow⟩

/-- Where refused tokens stop being the beginning of a sentence, and
what the fault says about it. -/
structure Misfit (tokens viable rest : List Token) (fault : SyntaxFault) : Prop where
  whole : tokens = viable ++ rest
  completable : IsCompletable maxNesting viable
  longest : ∀ first, first <+: tokens → IsCompletable maxNesting first →
    first.length ≤ viable.length
  ended : fault = .unexpectedEnd ↔ rest = []
  deep : ∀ t more, rest = t :: more →
    (fault = .nestedTooDeeply ↔ ∃ nesting, IsCompletable nesting (viable ++ [t]))
  misplaced : ∀ t more, rest = t :: more →
    (fault = .unexpectedToken ↔ ∀ nesting, ¬IsCompletable nesting (viable ++ [t]))

/-- A beginning that one more token ends is the longest one. -/
theorem length_le_of_not_isCompletable {viable rest : List Token} {t : Token}
    (ends : ¬IsCompletable maxNesting (viable ++ [t])) :
    ∀ first, first <+: viable ++ t :: rest → IsCompletable maxNesting first →
      first.length ≤ viable.length := by
  intro first begins completable
  refine Nat.le_of_not_lt fun longer => ends (completable.of_isPrefix ?_)
  have next : viable ++ [t] <+: viable ++ t :: rest := ⟨rest, by simp⟩
  refine List.prefix_of_prefix_length_le next begins ?_
  rw [List.length_append, List.length_singleton]
  exact longer

namespace Misfit

variable {viable rest : List Token} {t : Token}

theorem of_ended (completable : IsCompletable maxNesting viable) :
    Misfit viable viable [] .unexpectedEnd where
  whole := (List.append_nil _).symm
  completable := completable
  longest _ begins _ := begins.length_le
  ended := iff_of_true rfl rfl
  deep _ _ same := nomatch same
  misplaced _ _ same := nomatch same

theorem of_deep (completable : IsCompletable maxNesting viable)
    (goes_on : ∃ nesting, IsCompletable nesting (viable ++ [t]))
    (ends : ¬IsCompletable maxNesting (viable ++ [t])) :
    Misfit (viable ++ t :: rest) viable (t :: rest) .nestedTooDeeply where
  whole := rfl
  completable := completable
  longest := length_le_of_not_isCompletable ends
  ended := iff_of_false nofun nofun
  deep _ _ same := by
    cases same
    exact iff_of_true rfl goes_on
  misplaced _ _ same := by
    cases same
    exact iff_of_false nofun (fun none => goes_on.elim none)

theorem of_misplaced (completable : IsCompletable maxNesting viable)
    (ends : ∀ nesting, ¬IsCompletable nesting (viable ++ [t])) :
    Misfit (viable ++ t :: rest) viable (t :: rest) .unexpectedToken where
  whole := rfl
  completable := completable
  longest := length_le_of_not_isCompletable (ends _)
  ended := iff_of_false nofun nofun
  deep _ _ same := by
    cases same
    exact iff_of_false nofun (not_exists.mpr ends)
  misplaced _ _ same := by
    cases same
    exact iff_of_true rfl ends

end Misfit

/-- Tokens that are never read to their end, whatever follows them, begin no sentence. -/
theorem not_isCompletable {nesting : Nat} {viable : List Token} {t : Token}
    (unread : ∀ rest formula,
      (Rank.chain .sum).reader nesting (viable ++ t :: rest) ≠ .ok (formula, [])) :
    ¬IsCompletable nesting (viable ++ [t]) := by
  rintro ⟨s, ⟨more, completed⟩, shallow⟩
  refine unread more s.tree ?_
  rw [← s.reader_tokens shallow, ← completed, List.append_assoc, List.singleton_append]

theorem not_isCompletable_of_deeper {viable : List Token} {t : Token}
    (unread : ∀ nesting, maxNesting ≤ nesting →
      ∀ rest formula, (Rank.chain .sum).reader nesting (viable ++ t :: rest) ≠ .ok (formula, []))
    (nesting : Nat) : ¬IsCompletable nesting (viable ++ [t]) := fun completable =>
  not_isCompletable (unread (max maxNesting nesting) (Nat.le_max_left ..))
    (Rank.Begins.mono completable (Nat.le_max_right ..))

theorem exists_misfit {tokens : List Token} {fault : SyntaxFault}
    (refused : parse tokens = .error fault) : ∃ viable rest, Misfit tokens viable rest fault := by
  unfold parse at refused
  split at refused
  · cases refused
  · rename_i formula t rest read
    cases refused
    obtain ⟨taken, rfl, p, rfl, shallow, _⟩ := Rank.reader_takes maxNesting _ _ _ read
    have closes := Rank.sum_closes read
    refine ⟨p.tokens, t :: rest,
      .of_misplaced ⟨p, List.prefix_refl _, shallow⟩ (not_isCompletable_of_deeper ?_)⟩
    intro nesting deeper more formula read
    rw [(p.isReadBy (Nat.le_trans shallow deeper)).apply (closes.of_head more)] at read
    cases read
  · rename_i fails
    cases refused
    cases Rank.sum_refuses fails with
    | ended begins => exact ⟨_, [], .of_ended begins⟩
    | deep begins goes_on always =>
      exact ⟨_, _, .of_deep begins goes_on
        (not_isCompletable fun rest formula => by rw [always rest]; exact nofun)⟩
    | misplaced begins always =>
      refine ⟨_, _,
        .of_misplaced begins (not_isCompletable_of_deeper fun nesting deeper rest formula => ?_)⟩
      rw [always nesting deeper rest]
      exact nofun

/-- Tokens that are refused are refused at the first one that cannot continue a sentence: for their
end if there is no such token, for their depth if they could go on were there no limit, for the
token otherwise. So just the tokens that end too early can be completed. -/
theorem refused_at_misfit {tokens : List Token} {fault : SyntaxFault}
    (refused : parse tokens = .error fault) :
    (∃ viable rest, Misfit tokens viable rest fault) ∧
      (fault = .unexpectedEnd ↔ ∃ more formula, parse (tokens ++ more) = .ok formula) := by
  obtain ⟨viable, rest, misfit⟩ := exists_misfit refused
  refine ⟨⟨viable, rest, misfit⟩, ?_⟩
  rw [← isCompletable_iff, misfit.ended]
  constructor
  · rintro rfl
    rw [misfit.whole, List.append_nil]
    exact misfit.completable
  · intro completable
    have long := misfit.longest tokens (List.prefix_refl _) completable
    have whole := congrArg List.length misfit.whole
    rw [List.length_append] at whole
    exact List.eq_nil_of_length_eq_zero (by omega)

set_option maxRecDepth 2000 in
theorem refused_at_misfit_of_deep :
    let tokens : List Token :=
      .operator .subtract :: List.replicate maxNesting .opening ++ [.number 1]
    parse tokens = .error .nestedTooDeeply ∧
      (∃ viable rest, Misfit tokens viable rest .nestedTooDeeply) ∧
      ¬∃ more formula, parse (tokens ++ more) = .ok formula := by
  intro tokens
  have refused : parse tokens = .error .nestedTooDeeply := rfl
  obtain ⟨misfit, ended⟩ := refused_at_misfit refused
  exact ⟨refused, misfit, fun completable => nomatch ended.mpr completable⟩

end Formula

end CalcLength
