import CalcLength.Proofs.Derivation
import CalcLength.Proofs.Lexing

namespace CalcLength

theorem Lexeme.token_injective : Function.Injective Lexeme.token := by
  intro a b same
  cases a <;> cases b <;> cases same <;> rfl

theorem Lexeme.expand_ne_nil {α : Type} (negative : α → Bool) (size : α → Float) (word : Lexeme α) :
    word.expand negative size ≠ [] := by
  cases word with
  | operand a =>
    rw [expand]
    split <;> exact List.cons_ne_nil _ _
  | operator => exact List.cons_ne_nil _ _
  | opening => exact List.cons_ne_nil _ _
  | closing => exact List.cons_ne_nil _ _

/-- Whether a text, lexed once from left to right, is a sentence of the value given, a length being
its number times what its suffix names. -/
def Denotes (scale : Scale) (axis : Axis) (cs : List Char) (x : Float) : Prop :=
  ∃ (s : Sentence Leaf) (values : Leaf → Float), Lexes cs s.words ∧
    (∀ leaf ∈ s.operands, leaf.Proper ∧ leaf.pixels scale axis = .ok (values leaf)) ∧
      (s.formula values).value = x

namespace Calc

variable {scale : Scale} {axis : Axis} {cs : List Char} {x : Float}

/-- What is accepted has a plain text whose tokens are parsed. -/
theorem exists_parse_of_value (accepted : value scale axis cs = .ok x) : ∃ plain tokens formula,
    inPixels scale axis none (Piece.split cs) = .ok plain ∧ Token.scan plain = .ok tokens ∧
      Formula.parse tokens = .ok formula ∧ formula.value = x := by
  unfold value at accepted
  split at accepted
  · rename_i plain replaced
    unfold Formula.read at accepted
    split at accepted
    · rename_i tokens scanned
      cases parsed : Formula.parse tokens with
      | ok formula =>
        rw [parsed] at accepted
        exact ⟨plain, tokens, formula, replaced, scanned, parsed, Except.ok.inj accepted⟩
      | error fault =>
        rw [parsed] at accepted
        cases accepted
    · cases accepted
  · cases accepted

/-- Where no length disturbs what is around it, only sentences are
accepted, each with its own value. -/
theorem denotes_of_undisturbed (undisturbed : Undisturbed scale axis [] (Piece.split cs))
    (accepted : value scale axis cs = .ok x) : Denotes scale axis cs x := by
  obtain ⟨plain, tokens, formula, replaced, scanned, parsed, rfl⟩ := exists_parse_of_value accepted
  obtain ⟨words, lexed⟩ := Lexed.exists_of_replaces ⟨undisturbed, replaced⟩ scanned
  obtain ⟨t, tokens_eq, _, rfl⟩ := Formula.exists_sentence_of_parse parsed
  rw [lexed.tokens, Leaf.tokens, Phrase.tokens] at tokens_eq
  have expanded := (List.map_injective_iff.mpr Lexeme.token_injective tokens_eq).symm
  rw [← List.append_nil t.words] at expanded
  obtain ⟨s, behind, rfl, none, tree⟩ := t.exists_of_expansion expanded lexed.unattached
    fun leaf member => Leaf.signedValue (lexed.measured leaf member).finite
  obtain rfl : behind = [] := by
    cases behind with
    | nil => rfl
    | cons word behind => exact absurd (List.append_eq_nil_iff.mp none).1 (word.expand_ne_nil _ _)
  rw [List.append_nil] at lexed
  refine ⟨s, Leaf.value scale axis, lexed.lexes, fun leaf member => ?_, tree⟩
  have measured := lexed.measured leaf (s.mem_operands.mp member)
  exact ⟨measured.proper, measured.pixels⟩

/-- In a sentence no length disturbs what is around it. -/
theorem undisturbed_of_denotes (denotes : Denotes scale axis cs x) :
    Undisturbed scale axis [] (Piece.split cs) := by
  obtain ⟨s, values, lexes, measured, _⟩ := denotes
  refine lexes.spells.undisturbed (s.unattached _)
    (fun leaf member => (measured leaf (s.mem_operands.mpr member)).1) ?_ ?_
  · rintro ⟨front, letter, same, _⟩
    exact absurd (congrArg List.length same) (by simp)
  · refine fun leaf first => ⟨opens_nil, ?_⟩
    rintro ⟨front, letter, sign, same, _⟩
    exact absurd (congrArg List.length same) (by simp)

/-- An expression that is accepted is, as it is written, a sentence of the value it is given,
just when none of its lengths changes what the text around it means: none stands directly
behind the letter and the sign of a power, and none with a negative value stands behind an
operand or a closing parenthesis. -/
theorem denotes_iff_undisturbed (accepted : pixels scale axis cs = .ok x) :
    Denotes scale axis (body cs) x ↔ Undisturbed scale axis [] (Piece.split (body cs)) := by
  have accepted : value scale axis (body cs) = .ok x := by
    unfold pixels at accepted
    split at accepted
    · rename_i y same
      split at accepted
      · cases accepted
        exact same
      · cases accepted
    · cases accepted
  exact ⟨undisturbed_of_denotes, fun undisturbed => denotes_of_undisturbed undisturbed accepted⟩

theorem denotes_iff_undisturbed_sum :
    pixels ((Scale.ofPercents 1 1).set .em (-16)) .horizontal
      ("calc(1px + 2em)".toList) = .ok (-31) ∧
      (Denotes ((Scale.ofPercents 1 1).set .em (-16)) .horizontal
          (body "calc(1px + 2em)".toList) (-31) ↔
        Undisturbed ((Scale.ofPercents 1 1).set .em (-16)) .horizontal []
          (Piece.split (body "calc(1px + 2em)".toList))) :=
  have accepted : pixels ((Scale.ofPercents 1 1).set .em (-16)) .horizontal
      ("calc(1px + 2em)".toList) = .ok (-31) := by
    decide +kernel
  ⟨accepted, denotes_iff_undisturbed accepted⟩

/-- A length completes the power before it, and a minus sign that a length brings makes a difference
of two operands that stand side by side: neither text is a sentence, and both are accepted. -/
theorem malformed_accepted :
    (pixels ((Scale.ofPercents 1 1).set .em 16) .horizontal "calc(1e-2.5em)".toList = .ok 1e-40 ∧
      ∀ x, ¬Denotes ((Scale.ofPercents 1 1).set .em 16) .horizontal
        (body "calc(1e-2.5em)".toList) x) ∧
    (pixels ((Scale.ofPercents 1 1).set .em (-16)) .horizontal "calc(1 2em)".toList = .ok (-31) ∧
      ∀ x, ¬Denotes ((Scale.ofPercents 1 1).set .em (-16)) .horizontal
        (body "calc(1 2em)".toList) x) := by
  refine ⟨⟨by decide +kernel, fun x denotes => ?_⟩, ⟨by decide +kernel, fun x denotes => ?_⟩⟩
  · have pieces : Piece.split (body "calc(1e-2.5em)".toList) =
        [.plain '(', .plain '1', .plain 'e', .plain '-'] ++
          .length ['2', '.', '5'] (.relative .em) :: [.plain ')'] := by
      decide +kernel
    exact (undisturbed_of_denotes denotes _ _ _ _ pieces).1
      ⟨['(', '1'], 'e', '-', rfl, .inl rfl, .inr rfl⟩
  · have pieces : Piece.split (body "calc(1 2em)".toList) =
        [.plain '(', .plain '1', .plain ' '] ++ .length ['2'] (.relative .em) :: [.plain ')'] := by
      decide +kernel
    have opens := (undisturbed_of_denotes denotes _ _ _ _ pieces).2 (-32)
      (by decide +kernel) (by decide +kernel)
    exact absurd (opens '1' (by decide)) (by decide)

end Calc

end CalcLength
