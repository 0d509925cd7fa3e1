import Mathlib.Data.List.Chain
import CalcLength.Proofs.Phrase

namespace CalcLength

variable {α : Type} {r : Rank}

/-- Whether the word ends an operand, so that no operand can follow it. -/
def Lexeme.EndsOperand : Lexeme α → Prop
  | closing => True
  | operand _ => True
  | _ => False

/-- Whether no operand of some kind directly follows the end of another. -/
def Unattached (kind : α → Prop) (words : List (Lexeme α)) : Prop :=
  words.IsChain fun first second => ∀ a, second = .operand a → kind a → ¬first.EndsOperand

theorem Unattached.right {kind : α → Prop} {first second : List (Lexeme α)}
    (unattached : Unattached kind (first ++ second)) : Unattached kind second :=
  List.IsChain.right_of_append unattached

theorem Unattached.tail {kind : α → Prop} {word : Lexeme α} {words : List (Lexeme α)}
    (unattached : Unattached kind (word :: words)) : Unattached kind words :=
  (List.isChain_cons.mp unattached).2

namespace Phrase

theorem exists_words_eq_append (p : Phrase α r) :
    ∃ front last, p.words = front ++ [last] ∧ last.EndsOperand := by
  induction p with
  | single only ih => exact ih
  | join left op accepted right _ ih =>
    obtain ⟨front, last, words, ends⟩ := ih
    exact ⟨left.words ++ .operator op :: front, last,
      by rw [Phrase.words, words, List.append_assoc, List.cons_append], ends⟩
  | signed op accepted inner ih =>
    obtain ⟨front, last, words, ends⟩ := ih
    exact ⟨.operator op :: front, last, by rw [Phrase.words, words, List.cons_append], ends⟩
  | unsigned inner ih => exact ih
  | operand a => exact ⟨[], .operand a, rfl, trivial⟩
  | group inner => exact ⟨.opening :: inner.words, .closing, rfl, trivial⟩

/-- In a phrase operands stand behind operators and opening parentheses only. -/
theorem unattached (p : Phrase α r) (kind : α → Prop) : Unattached kind p.words := by
  induction p with
  | single only ih => exact ih
  | join left op accepted right ihLeft ihRight =>
    refine List.isChain_append.mpr ⟨ihLeft, List.isChain_cons.mpr ⟨fun _ _ _ _ _ => id, ihRight⟩,
      ?_⟩
    rintro _ _ _ ⟨⟩ _ ⟨⟩
  | signed op accepted inner ih => exact List.isChain_cons.mpr ⟨fun _ _ _ _ _ => id, ih⟩
  | unsigned inner ih => exact ih
  | operand a => exact List.isChain_singleton _
  | group inner ih =>
    refine List.isChain_append.mpr ⟨List.isChain_cons.mpr ⟨fun _ _ _ _ _ => id, ih⟩,
      List.isChain_singleton _, ?_⟩
    rintro _ _ _ ⟨⟩ _ ⟨⟩

end Phrase

section Signs

variable (negative : α → Bool) (size value : α → Float)

/-- The word with the sign of a negative operand as a word of its own. -/
def Lexeme.expand : Lexeme α → List (Lexeme Float)
  | operator op => [.operator op]
  | opening => [.opening]
  | closing => [.closing]
  | operand a =>
    if negative a then [.operator .subtract, .operand (size a)] else [.operand (size a)]

/-- Whether an operand has the value of its size behind its sign. -/
def SignedValue (a : α) : Prop :=
  (if negative a then -size a else size a) = value a

/-- A primary phrase with a sign of its own is a signed one. -/
def Rank.expand : Rank → Rank
  | primary => unary
  | r => r

variable {negative size value}

/-- Signs that are words of their own leave the value of a phrase as it is. -/
theorem Phrase.exists_expansion (p : Phrase α r)
    (signed : ∀ a ∈ p.operands, SignedValue negative size value a) :
    ∃ q : Phrase Float r.expand, q.words = p.words.flatMap (Lexeme.expand negative size) ∧
      q.depth = p.nesting (fun a => if negative a then 1 else 0) ∧
        q.tree.value = (p.formula value).value := by
  induction p with
  | @single level only ih =>
    obtain ⟨q, words, depth, tree⟩ := ih signed
    cases level with
    | sum => exact ⟨@Phrase.single _ .sum q, words, depth, tree⟩
    | product => exact ⟨@Phrase.single _ .product q, words, depth, tree⟩
  | @join level left op accepted right ihLeft ihRight =>
    obtain ⟨q, words, depth, tree⟩ :=
      ihLeft fun a member => signed a (List.mem_append_left _ member)
    obtain ⟨t, words', depth', tree'⟩ :=
      ihRight fun a member => signed a (List.mem_append_right _ member)
    have joined : q.words ++ .operator op :: t.words =
        (left.words ++ .operator op :: right.words).flatMap (Lexeme.expand negative size) := by
      rw [List.flatMap_append, List.flatMap_cons, words, words']
      rfl
    have deepest := congrArg₂ max depth depth'
    have result := congrArg₂ op.apply tree tree'
    cases level with
    | sum => exact ⟨@Phrase.join _ .sum q op accepted t, joined, deepest, result⟩
    | product => exact ⟨@Phrase.join _ .product q op accepted t, joined, deepest, result⟩
  | signed op accepted inner ih =>
    obtain ⟨q, words, depth, tree⟩ := ih signed
    refine ⟨.signed op accepted q, congrArg (Lexeme.operator op :: ·) words,
      congrArg (· + 1) depth, ?_⟩
    simp only [Phrase.tree, Phrase.formula] at tree ⊢
    split
    · exact congrArg (-·) tree
    · exact tree
  | unsigned inner ih =>
    obtain ⟨q, words, depth, tree⟩ := ih signed
    exact ⟨q, words, depth, tree⟩
  | operand a =>
    have same := signed a (List.mem_singleton_self a)
    unfold SignedValue at same
    cases sign : negative a with
    | true =>
      rw [sign, if_pos rfl] at same
      refine ⟨.signed .subtract rfl (.unsigned (.operand (size a))), ?_, ?_, same⟩
      · simp [Phrase.words, Lexeme.expand, sign]
      · simp [Phrase.depth, Phrase.nesting, sign]
    | false =>
      rw [sign] at same
      refine ⟨.unsigned (.operand (size a)), ?_, ?_, same⟩
      · simp [Phrase.words, Lexeme.expand, sign]
      · simp [Phrase.depth, Phrase.nesting, sign]
  | group inner ih =>
    obtain ⟨q, words, depth, tree⟩ := ih signed
    refine ⟨.unsigned (.group q), ?_, congrArg (· + 1) depth, tree⟩
    simp only [Phrase.words, List.flatMap_append, List.flatMap_cons, List.flatMap_nil,
      Lexeme.expand, List.cons_append, List.nil_append]
    exact congrArg (fun words => Lexeme.opening :: (words ++ [.closing])) words

/-- How words begin whose expansion begins with a word and goes on with the rest. -/
inductive Expanded (negative : α → Bool) (size : α → Float) (rest : List (Lexeme Float)) :
    List (Lexeme α) → Lexeme Float → Prop
  | operator {op : Operator} {behind : List (Lexeme α)}
      (after : behind.flatMap (Lexeme.expand negative size) = rest) :
      Expanded negative size rest (.operator op :: behind) (.operator op)
  | opening {behind : List (Lexeme α)}
      (after : behind.flatMap (Lexeme.expand negative size) = rest) :
      Expanded negative size rest (.opening :: behind) .opening
  | closing {behind : List (Lexeme α)}
      (after : behind.flatMap (Lexeme.expand negative size) = rest) :
      Expanded negative size rest (.closing :: behind) .closing
  | size {a : α} {behind : List (Lexeme α)} (plus : ¬negative a = true)
      (after : behind.flatMap (Lexeme.expand negative size) = rest) :
      Expanded negative size rest (.operand a :: behind) (.operand (size a))
  | sign {a : α} {behind : List (Lexeme α)} (minus : negative a = true)
      (after : .operand (size a) :: behind.flatMap (Lexeme.expand negative size) = rest) :
      Expanded negative size rest (.operand a :: behind) (.operator .subtract)

theorem expanded_of_eq_cons {words : List (Lexeme α)} {first : Lexeme Float}
    {rest : List (Lexeme Float)}
    (same : words.flatMap (Lexeme.expand negative size) = first :: rest) :
    Expanded negative size rest words first := by
  cases words with
  | nil => cases same
  | cons word behind =>
    cases word with
    | operator op =>
      obtain ⟨rfl, after⟩ := List.cons.inj same
      exact .operator after
    | opening =>
      obtain ⟨rfl, after⟩ := List.cons.inj same
      exact .opening after
    | closing =>
      obtain ⟨rfl, after⟩ := List.cons.inj same
      exact .closing after
    | operand a =>
      rw [List.flatMap_cons, Lexeme.expand] at same
      split at same
      · rename_i minus
        obtain ⟨rfl, after⟩ := List.cons.inj same
        exact .sign minus after
      · rename_i plus
        obtain ⟨rfl, after⟩ := List.cons.inj same
        exact .size plus after

/-- Words that make a phrase once their signs are words of their own make one as they are, of the
same value. A sign in front of an operand that follows another would join the two. -/
theorem Phrase.exists_of_expansion (q : Phrase Float r) {words : List (Lexeme α)}
    {rest : List (Lexeme Float)}
    (same : words.flatMap (Lexeme.expand negative size) = q.words ++ rest)
    (unattached : Unattached (fun a => negative a = true) words)
    (signed : ∀ a, Lexeme.operand a ∈ words → SignedValue negative size value a) :
    ∃ p : Phrase α r, ∃ behind, words = p.words ++ behind ∧
      behind.flatMap (Lexeme.expand negative size) = rest ∧
      (p.formula value).value = q.tree.value := by
  induction q generalizing words rest with
  | single only ih =>
    obtain ⟨p, behind, here, rest, tree⟩ := ih same unattached signed
    exact ⟨.single p, behind, here, rest, tree⟩
  | join left op accepted right ihLeft ihRight =>
    rw [Phrase.words, List.append_assoc] at same
    obtain ⟨p, behind, rfl, same, tree⟩ := ihLeft same unattached signed
    cases expanded_of_eq_cons same with
    | operator after =>
      obtain ⟨p', behind, rfl, rest, tree'⟩ := ihRight after unattached.right.tail
        fun a member => signed a (List.mem_append_right _ (List.mem_cons_of_mem _ member))
      refine ⟨.join p op accepted p', behind, ?_, rest, congrArg₂ op.apply tree tree'⟩
      rw [Phrase.words, List.append_assoc, List.cons_append]
    | sign minus =>
      obtain ⟨front, last, here, ends⟩ := p.exists_words_eq_append
      rw [here, List.append_assoc, List.singleton_append] at unattached
      exact absurd ends ((List.isChain_cons.mp unattached.right).1 _ rfl _ rfl minus)
  | signed op accepted inner ih =>
    cases expanded_of_eq_cons same with
    | operator after =>
      obtain ⟨p, behind, rfl, rest, tree⟩ := ih after unattached.tail
        fun a member => signed a (List.mem_cons_of_mem _ member)
      refine ⟨.signed op accepted p, behind, rfl, rest, ?_⟩
      simp only [Phrase.tree, Phrase.formula] at tree ⊢
      split
      · exact congrArg (-·) tree
      · exact tree
    | @sign a behind minus after =>
      have value_eq := signed a (List.mem_cons_self ..)
      rw [SignedValue, if_pos minus] at value_eq
      -- A sign that an operand brings stands directly before its size, which is all that the sign
      -- negates.
      cases inner with
      | signed => cases after
      | unsigned inner =>
        cases inner with
        | group => cases after
        | operand x =>
          obtain ⟨first, rest⟩ := List.cons.inj after
          cases first
          exact ⟨.unsigned (.operand a), behind, rfl, rest, value_eq.symm⟩
  | unsigned inner ih =>
    obtain ⟨p, behind, here, rest, tree⟩ := ih same unattached signed
    exact ⟨.unsigned p, behind, here, rest, tree⟩
  | operand x =>
    cases expanded_of_eq_cons same with
    | @size a behind plus after =>
      have value_eq := signed a (List.mem_cons_self ..)
      rw [SignedValue, if_neg plus] at value_eq
      exact ⟨.operand a, behind, rfl, after, value_eq.symm⟩
  | group inner ih =>
    rw [Phrase.words, List.append_assoc, List.cons_append] at same
    cases expanded_of_eq_cons same with
    | opening after =>
      obtain ⟨p, behind, rfl, after, tree⟩ := ih after unattached.tail
        fun a member => signed a (List.mem_cons_of_mem _ member)
      cases expanded_of_eq_cons after with
      | @closing behind rest =>
        refine ⟨.group p, behind, ?_, rest, tree⟩
        rw [Phrase.words, List.cons_append, List.cons_append, List.append_assoc,
          List.singleton_append]

end Signs

end CalcLength
