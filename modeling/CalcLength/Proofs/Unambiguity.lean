import CalcLength.Proofs.Derivation

namespace CalcLength

open Formula

/-- What may follow a part of a chain within the chain: nothing, or more operands. -/
def Level.GoesOn (level : Level) (more : List Token) : Prop :=
  more = [] ∨ StartsWith level.accepts more

theorem Level.GoesOn.append {level : Level} {first second : List Token}
    (goes_on : level.GoesOn first) (then_on : level.GoesOn second) :
    level.GoesOn (first ++ second) := by
  rcases goes_on with rfl | ⟨op, rest, rfl, accepted⟩
  · exact then_on
  · exact Or.inr ⟨op, rest ++ second, rfl, accepted⟩

/-- What follows an operand in a chain cannot belong to the operand. -/
theorem Level.GoesOn.closes {level : Level} {more rest : List Token} (goes_on : level.GoesOn more)
    (ends : (Rank.chain level).Ends rest) : level.operand.Closes (more ++ rest) := by
  rcases goes_on with rfl | ⟨op, after, rfl, accepted⟩
  · exact Level.closes_of_ends ends
  · exact level.closes_operator accepted _

theorem Rank.Closes.ends {r : Rank} {rest : List Token} (closes : r.Closes rest) : r.Ends rest := by
  cases r with
  | chain level => exact closes.2
  | unary => trivial
  | primary => trivial

namespace Phrase

/-- The first phrase is the second one, or a part of that chain which
lacks some operands at its end. -/
inductive Begins : {r : Rank} → Phrase Float r → Phrase Float r → Prop
  | refl {r : Rank} (p : Phrase Float r) : Begins p p
  | join {level : Level} {p left : Phrase Float (.chain level)} {op : Operator}
      {accepted : level.accepts op = true}
      {right : Phrase Float level.operand} (begins : Begins p left) :
        Begins p (.join left op accepted right)

theorem Begins.tokens_append {level : Level} {p q : Phrase Float (.chain level)}
    (begins : Begins p q) : ∃ more, q.tokens = p.tokens ++ more ∧ level.GoesOn more := by
  cases begins with
  | refl => exact ⟨[], (List.append_nil _).symm, Or.inl rfl⟩
  | @join _ _ left op accepted right begins =>
    obtain ⟨more, same, goes_on⟩ := begins.tokens_append
    refine ⟨more ++ .operator op :: right.tokens, ?_,
      goes_on.append (Or.inr ⟨op, _, rfl, accepted⟩)⟩
    rw [tokens_join, same, List.append_assoc]

theorem Begins.eq_or_join {level : Level} {p q : Phrase Float (.chain level)}
    (begins : Begins p q) : p = q ∨ ∃ op accepted right, Begins (p.join op accepted right) q := by
  cases begins with
  | refl => exact Or.inl rfl
  | @join _ _ left op accepted right begins =>
    rcases begins.eq_or_join with rfl | ⟨op', accepted', right', begins⟩
    · exact Or.inr ⟨op, accepted, right, .refl _⟩
    · exact Or.inr ⟨op', accepted', right', begins.join⟩

theorem exists_single_begins {level : Level} (q : Phrase Float (.chain level)) :
    ∃ first, Begins (single first) q := by
  cases q with
  | single first => exact ⟨first, .refl _⟩
  | join left =>
    obtain ⟨first, begins⟩ := exists_single_begins left
    exact ⟨first, begins.join⟩

/-- A phrase that cannot go on into what follows it is no proper beginning of another. -/
theorem Begins.eq_of_closes {r : Rank} {p q : Phrase Float r} {rest rest' : List Token}
    (begins : Begins p q) (same : p.tokens ++ rest = q.tokens ++ rest') (closes : r.Closes rest) :
    p = q := by
  cases r with
  | chain level =>
    rcases begins.eq_or_join with equal | ⟨op, accepted, right, begins⟩
    · exact equal
    · obtain ⟨more, tokens, _⟩ := begins.tokens_append
      rw [tokens, tokens_join, List.append_assoc, List.append_assoc,
        List.append_cancel_left_eq] at same
      exact absurd ⟨op, _, same, accepted⟩ closes.1
  | unary => cases begins; rfl
  | primary => cases begins; rfl

theorem eq_of_comparable {r : Rank} {p q : Phrase Float r} {rest rest' : List Token}
    (comparable : Begins p q ∨ Begins q p) (same : p.tokens ++ rest = q.tokens ++ rest')
    (closes : r.Closes rest) (closes' : r.Closes rest') : p = q := by
  rcases comparable with begins | begins
  · exact begins.eq_of_closes same closes
  · exact (begins.eq_of_closes same.symm closes').symm

/-- Of two phrases at the head of the same tokens, one begins the other. -/
theorem comparable {r : Rank} (p q : Phrase Float r) {rest rest' : List Token}
    (same : p.tokens ++ rest = q.tokens ++ rest') (ends : r.Ends rest) (ends' : r.Ends rest') :
    Begins p q ∨ Begins q p := by
  induction p generalizing rest rest' with
  | @single level only ih =>
    obtain ⟨first, begins⟩ := exists_single_begins q
    obtain ⟨more, tokens, goes_on⟩ := begins.tokens_append
    rw [tokens, List.append_assoc] at same
    have closes := Level.closes_of_ends ends
    have closes' := goes_on.closes ends'
    have equal := eq_of_comparable (ih first same closes.ends closes'.ends) same closes closes'
    subst equal
    exact Or.inl begins
  | @join level left op accepted right ihLeft ihRight =>
    rw [tokens_join, List.append_assoc] at same
    rcases ihLeft q same (Level.ends_operator accepted _) ends' with begins | begins
    · rcases begins.eq_or_join with rfl | ⟨op', accepted', right', begins⟩
      · exact Or.inr (Begins.refl _).join
      · obtain ⟨more, tokens, goes_on⟩ := begins.tokens_append
        rw [tokens, tokens_join, List.append_assoc, List.append_assoc,
          List.append_cancel_left_eq] at same
        obtain ⟨rfl, behind⟩ : op = op' ∧ right.tokens ++ rest =
          right'.tokens ++ (more ++ rest') := by simpa using same
        have closes := Level.closes_of_ends ends
        have closes' := goes_on.closes ends'
        have equal :=
          eq_of_comparable (ihRight right' behind closes.ends closes'.ends) behind closes closes'
        subst equal
        exact Or.inl begins
    · exact Or.inr begins.join
  | signed op accepted inner ih =>
    cases q with
    | signed op' accepted' inner' =>
      obtain ⟨rfl, behind⟩ : op = op' ∧ inner.tokens ++ rest = inner'.tokens ++ rest' := by
        simpa using same
      have equal := eq_of_comparable (ih inner' behind trivial trivial) behind trivial trivial
      subst equal
      exact Or.inl (.refl _)
    | unsigned inner' => cases inner' <;> simp at same
  | unsigned inner ih =>
    cases q with
    | signed op' accepted' inner' => cases inner <;> simp at same
    | unsigned inner' =>
      have equal := eq_of_comparable (ih inner' same trivial trivial) same trivial trivial
      subst equal
      exact Or.inl (.refl _)
  | operand x =>
    cases q with
    | operand y =>
      obtain ⟨rfl, _⟩ : x = y ∧ rest = rest' := by simpa using same
      exact Or.inl (.refl _)
    | group inner' => simp at same
  | group inner ih =>
    cases q with
    | operand y => simp at same
    | group inner' =>
      have same : inner.tokens ++ .closing :: rest = inner'.tokens ++ .closing :: rest' := by
        simpa using same
      have closes := closes_closing .sum rest
      have closes' := closes_closing .sum rest'
      have equal := eq_of_comparable (ih inner' same closes.ends closes'.ends) same closes closes'
      subst equal
      exact Or.inl (.refl _)

/-- No tokens have two derivations. -/
theorem tokens_injective {s t : Sentence Float} (same : s.tokens = t.tokens) : s = t := by
  have closes := closes_nil .sum
  have same : s.tokens ++ [] = t.tokens ++ [] := by rw [same]
  exact eq_of_comparable (comparable s t same closes.ends closes.ends) same closes closes

end Phrase

namespace Formula

/-- Parsing accepts the sentences of the grammar with at most so much nesting, no other tokens, and
answers with the tree of the only derivation. -/
theorem parse_eq_ok_iff_derivation (tokens : List Token) :
    (∀ formula, parse tokens = .ok formula ↔
      ∃ s : Sentence Float, s.tokens = tokens ∧ s.depth ≤ maxNesting ∧ s.tree = formula) ∧
    ∀ s t : Sentence Float, s.tokens = tokens → t.tokens = tokens → s = t := by
  refine ⟨fun formula => ⟨exists_sentence_of_parse, ?_⟩,
    fun s t atS atT => Phrase.tokens_injective (atS.trans atT.symm)⟩
  rintro ⟨s, rfl, shallow, rfl⟩
  exact parse_tokens shallow

end Formula

end CalcLength
