import CalcLength.Proofs.Splitting

namespace CalcLength

/-- Whether no number and no suffix has the character, so that no length goes on over it. -/
structure Separates (c : Char) : Prop where
  no_digit : Text.isDecimalDigit c = false
  no_point : c ≠ '.'
  no_letter : ¬IsPowerLetter c
  no_sign : ¬IsSign c
  no_suffix : c ∉ Suffix.alphabet

instance (c : Char) : Decidable (Separates c) :=
  decidable_of_iff (Text.isDecimalDigit c = false ∧ c ≠ '.' ∧ ¬IsPowerLetter c ∧
      ¬IsSign c ∧ c ∉ Suffix.alphabet)
    ⟨fun ⟨digit, point, letter, sign, suffix⟩ => ⟨digit, point, letter, sign, suffix⟩,
      fun ⟨digit, point, letter, sign, suffix⟩ => ⟨digit, point, letter, sign, suffix⟩⟩

/-- A beginning of a text that lacks a character ends before the character. -/
theorem isPrefix_append_cons_iff {α : Type} {first cs rest : List α} {c : α} (absent : c ∉ first) :
    first <+: cs ++ c :: rest ↔ first <+: cs := by
  refine ⟨fun begins => ?_, fun begins => begins.trans (List.prefix_append _ _)⟩
  by_cases short : first.length ≤ cs.length
  · exact List.prefix_of_prefix_length_le begins (List.prefix_append _ _) short
  · have longer : cs ++ [c] <+: first := by
      refine List.prefix_of_prefix_length_le ?_ begins ?_
      · exact (List.prefix_append_right_inj cs).mpr
          (List.cons_prefix_cons.mpr ⟨rfl, List.nil_prefix⟩)
      · rw [List.length_append, List.length_singleton]
        omega
    exact absurd (longer.subset (List.mem_append_right _ (List.mem_singleton_self c))) absent

namespace Piece

variable {c : Char} {rest : List Char}

theorem drop_append_of_isPrefix {first cs : List Char} (begins : first <+: cs) (rest : List Char) :
    (cs ++ rest).drop first.length = cs.drop first.length ++ rest :=
  List.drop_append_of_le_length begins.length_le

section Separated

variable (separates : Separates c) (cs rest : List Char)
include separates

theorem digits_append_separator : digits (cs ++ c :: rest) = digits cs := by
  induction cs with
  | nil => exact List.takeWhile_cons_of_neg (by rw [separates.no_digit]; decide)
  | cons d cs ih =>
    simp only [digits] at ih ⊢
    rw [List.cons_append, List.takeWhile_cons, List.takeWhile_cons, ih]

theorem fraction_append_separator : fraction (cs ++ c :: rest) = fraction cs := by
  cases cs with
  | nil =>
    rw [List.nil_append, fraction.eq_2]
    · rfl
    · exact fun _ same => separates.no_point (List.cons.inj same).1
  | cons d cs =>
    by_cases point : d = '.'
    · subst point
      rw [List.cons_append, fraction, fraction, digits_append_separator separates]
    · have other (cs : List Char) : fraction (d :: cs) = [] :=
        fraction.eq_2 _ fun _ same => point (List.cons.inj same).1
      rw [List.cons_append, other, other]

theorem sign_append_separator : sign (cs ++ c :: rest) = sign cs := by
  cases cs with
  | nil =>
    rw [List.nil_append, sign.eq_3]
    · rfl
    · exact fun _ same => separates.no_sign (.inl (List.cons.inj same).1)
    · exact fun _ same => separates.no_sign (.inr (List.cons.inj same).1)
  | cons d cs =>
    by_cases plus : d = '+'
    · subst plus
      rfl
    · by_cases minus : d = '-'
      · subst minus
        rfl
      · have other (cs : List Char) : sign (d :: cs) = [] :=
          sign.eq_3 _ (fun _ same => plus (List.cons.inj same).1) fun _ same =>
            minus (List.cons.inj same).1
        rw [List.cons_append, other, other]

theorem power_append_separator : power (cs ++ c :: rest) = power cs := by
  cases cs with
  | nil =>
    rw [List.nil_append, power, power, if_neg]
    rw [Bool.and_eq_true, Bool.or_eq_true, decide_eq_true_eq, decide_eq_true_eq]
    exact fun taken => separates.no_letter taken.1
  | cons letter cs =>
    rw [List.cons_append, power, power, sign_append_separator separates,
      drop_append_of_isPrefix (sign_isPrefix cs), digits_append_separator separates]

theorem number_append_separator : number (cs ++ c :: rest) = number cs := by
  have whole := digits_append_separator separates cs rest
  have point : fraction ((cs ++ c :: rest).drop (digits cs).length) =
      fraction (cs.drop (digits cs).length) := by
    rw [drop_append_of_isPrefix (digits_isPrefix cs), fraction_append_separator separates]
  have size :
      power ((cs ++ c :: rest).drop (digits cs ++ fraction (cs.drop (digits cs).length)).length) =
        power (cs.drop (digits cs ++ fraction (cs.drop (digits cs).length)).length) := by
    rw [drop_append_of_isPrefix (append_isPrefix (digits_isPrefix cs) (fraction_isPrefix _)),
      power_append_separator separates]
  simp only [number, whole, point, size]

end Separated

end Piece

theorem Suffix.scan?_append_separator {c : Char} (separates : Separates c) (cs rest : List Char) :
    scan? (cs ++ c :: rest) = (scan? cs).map fun (suffix, after) =>
      (suffix, after ++ c :: rest) := by
  have same (suffix : Suffix) :
      suffix.letters.isPrefixOf (cs ++ c :: rest) = suffix.letters.isPrefixOf cs := by
    rw [Bool.eq_iff_iff, List.isPrefixOf_iff_prefix, List.isPrefixOf_iff_prefix]
    exact isPrefix_append_cons_iff fun member => separates.no_suffix (mem_alphabet member)
  simp only [scan?, same, Option.map_map]
  cases found : all.find? fun suffix => suffix.letters.isPrefixOf cs with
  | none => rfl
  | some suffix =>
    have begins := List.find?_some (p := fun suffix : Suffix => suffix.letters.isPrefixOf cs) found
    rw [Option.map_some, Option.map_some, Function.comp_apply,
      Piece.drop_append_of_isPrefix (List.isPrefixOf_iff_prefix.mp begins)]

namespace Piece

variable {c : Char}

/-- What is found before a separator is found without what comes behind. -/
theorem scan?_append_separator (separates : Separates c) (cs rest : List Char) :
    scan? (cs ++ c :: rest) =
      (scan? cs).map fun (number, suffix, after) => (number, suffix, after ++ c :: rest) := by
  rw [scan?, number_append_separator separates, scan?]
  split
  · rfl
  · rw [drop_append_of_isPrefix (number_isPrefix cs), Suffix.scan?_append_separator separates,
      Option.map_map, Option.map_map]
    rfl

/-- A text is taken apart on each side of a separator by itself. -/
theorem split_append_separator (separates : Separates c) (cs rest : List Char) :
    split (cs ++ c :: rest) = split cs ++ .plain c :: split rest := by
  fun_induction split cs with
  | case1 => exact split_plain (scan?_eq_none_of_head separates.no_digit separates.no_point)
  | case2 d cs number suffix after found ih =>
    have here : scan? (d :: cs ++ c :: rest) = some (number, suffix, after ++ c :: rest) := by
      rw [scan?_append_separator separates, found]
      rfl
    rw [split_length here, ih, List.cons_append]
  | case3 d cs found ih =>
    have here : scan? (d :: cs ++ c :: rest) = none := by
      rw [scan?_append_separator separates, found]
      rfl
    rw [List.cons_append] at here ⊢
    rw [split_plain here, ih, List.cons_append]

end Piece

end CalcLength
