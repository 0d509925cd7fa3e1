import Mathlib.Data.Bool.AllAny
import CalcLength.Formula.Token
import CalcLength.Proofs.NumberShape

namespace CalcLength

/-- Whether a character is a blank or a token of its own, and so belongs
to no number and no length. -/
def Delimits (c : Char) : Prop :=
  Text.isBlank c = true ∨ (Token.ofChar? c).isSome = true

/-- Whether no number or length goes on into the text. -/
def Delimited (cs : List Char) : Prop :=
  ∀ c, cs.head? = some c → Delimits c

def delimiters : List Char :=
  [' ', '\t', '\n', '\x0c', '\r', '+', '-', '*', '/', '(', ')']

/-- The letters of all suffixes. -/
def Suffix.alphabet : List Char :=
  all.flatMap letters

theorem Suffix.mem_alphabet {suffix : Suffix} {c : Char} (member : c ∈ suffix.letters) :
    c ∈ alphabet :=
  List.mem_flatMap.mpr ⟨suffix, suffix.mem_all, member⟩

theorem Delimits.mem {c : Char} (delimits : Delimits c) : c ∈ delimiters := by
  rcases delimits with blank | token
  · simp only [Text.isBlank, Bool.or_eq_true, decide_eq_true_eq] at blank
    rcases blank with (((rfl | rfl) | rfl) | rfl) | rfl <;> decide
  · obtain ⟨token, here⟩ := Option.isSome_iff_exists.mp token
    rcases Token.eq_of_ofChar? here with ⟨op, rfl, _⟩ | ⟨rfl, _⟩ | ⟨rfl, _⟩
    · cases op <;> decide
    · decide
    · decide

/-- A delimiter begins no number, goes on with none but for the sign of a power,
and is no letter of a suffix. -/
theorem Delimits.not_in_number {c : Char} (delimits : Delimits c) :
    Text.isDecimalDigit c = false ∧ c ≠ '.' ∧ ¬IsPowerLetter c := by
  have apart : ∀ c ∈ delimiters, Text.isDecimalDigit c = false ∧ c ≠ '.' ∧ ¬IsPowerLetter c :=
    List.all_iff_forall_prop.mp rfl
  exact apart c delimits.mem

theorem Delimits.not_mem_letters {c : Char} (delimits : Delimits c) (suffix : Suffix) :
    c ∉ suffix.letters := by
  have apart : ∀ c ∈ delimiters, c ∉ Suffix.alphabet := List.all_iff_forall_prop.mp rfl
  exact fun member => apart c delimits.mem (Suffix.mem_alphabet member)

theorem not_isDigit_of_not_isDecimalDigit {c : Char} (other : Text.isDecimalDigit c = false) :
    c.isDigit = false := by
  rw [Bool.eq_false_iff] at other ⊢
  exact fun digit => other (Text.isDecimalDigit_of_isDigit digit)

theorem delimited_nil : Delimited [] :=
  nofun

theorem delimited_cons {c : Char} {cs : List Char} : Delimited (c :: cs) ↔ Delimits c := by
  constructor
  · exact fun delimited => delimited c rfl
  · intro delimits d first
    cases first
    exact delimits

/-- A delimiter ends every literal. -/
theorem Delimited.ends {cs : List Char} (delimited : Delimited cs) (l : Literal) : l.Ends cs where
  digit c first := not_isDigit_of_not_isDecimalDigit (delimited c first).not_in_number.1
  point _ _ first := (delimited '.' first).not_in_number.2.1 rfl
  power _ := Numeral.power?_eq_none fun c first => (delimited c first).not_in_number.2.2

namespace Numeral

theorem read?_text (l : Literal) : read? l.text = some l.value := by
  have found := scan?_append l (delimited_nil.ends l)
  rw [List.append_nil] at found
  rw [read?, found, Literal.value]

theorem exists_literal_of_read? {cs : List Char} {x : Float} (read : read? cs = some x) :
    ∃ l : Literal, cs = l.text ∧ l.value = x := by
  unfold read? at read
  split at read
  · rename_i n found
    cases read
    obtain ⟨l, text, same, _⟩ := exists_literal_of_scan? found
    rw [List.append_nil] at text
    exact ⟨l, text, congrArg Numeral.value same⟩
  · cases read

/-- What is read as a number from end to end is the text of a literal. -/
theorem read?_eq_some_iff {cs : List Char} {x : Float} :
    read? cs = some x ↔ ∃ l : Literal, l.text = cs ∧ l.value = x := by
  constructor
  · intro read
    obtain ⟨l, rfl, value⟩ := exists_literal_of_read? read
    exact ⟨l, rfl, value⟩
  · rintro ⟨l, rfl, rfl⟩
    exact read?_text l

end Numeral

namespace Suffix

theorem not_in_number_of_mem {suffix : Suffix} {c : Char} (member : c ∈ suffix.letters) :
    Text.isDecimalDigit c = false ∧ c ≠ '.' ∧ c ≠ '+' ∧ c ≠ '-' ∧ c ≠ 'E' := by
  have apart : ∀ c ∈ alphabet, Text.isDecimalDigit c = false ∧ c ≠ '.' ∧
      c ≠ '+' ∧ c ≠ '-' ∧ c ≠ 'E' :=
    List.all_iff_forall_prop.mp rfl
  exact apart c (mem_alphabet member)

/-- Behind the letter that a power may begin with, a suffix goes on with
a letter that no power has. -/
theorem letters_eq_cons (suffix : Suffix) :
    ∃ c rest, suffix.letters = c :: rest ∧
      (IsPowerLetter c → ∃ d more, rest = d :: more ∧
        Text.isDecimalDigit d = false ∧ d ≠ '.' ∧ ¬IsPowerLetter d ∧ ¬IsSign d) := by
  have shapes : ∀ suffix ∈ all, suffix.letters.head? = some 'e' ∨ suffix.letters.head? = some 'E' →
      suffix.letters.tail.head?.any fun d => Text.isDecimalDigit d = false ∧ d ≠ '.' ∧
        ¬IsPowerLetter d ∧ ¬IsSign d := by
    decide
  have shape := shapes suffix suffix.mem_all
  cases letters : suffix.letters with
  | nil => exact absurd letters suffix.letters_ne_nil
  | cons c rest =>
    rw [letters] at shape
    refine ⟨c, rest, rfl, fun letter => ?_⟩
    obtain ⟨d, second, apart⟩ :=
      (Option.any_eq_true _ _).mp (shape (letter.imp (congrArg some) (congrArg some)))
    obtain ⟨more, rfl⟩ := List.head?_eq_some_iff.mp second
    exact ⟨d, more, rfl, of_decide_eq_true apart⟩

theorem eq_of_isPrefix {a b : Suffix} {cs : List Char} (first : a.letters <+: cs)
    (second : b.letters <+: cs) : a = b := by
  rcases List.prefix_or_prefix_of_prefix first second with begins | begins
  · exact eq_of_letters_isPrefix begins
  · exact (eq_of_letters_isPrefix begins).symm

theorem scan?_append (suffix : Suffix) (rest : List Char) :
    scan? (suffix.letters ++ rest) = some (suffix, rest) := by
  have here :
      (all.find? fun other => other.letters.isPrefixOf (suffix.letters ++ rest)) = some suffix := by
    cases found : all.find? fun other => other.letters.isPrefixOf (suffix.letters ++ rest) with
    | none =>
      have absent := List.find?_eq_none.mp found suffix suffix.mem_all
      exact absurd (List.isPrefixOf_iff_prefix.mpr (List.prefix_append _ _)) absent
    | some other =>
      have begins := List.find?_some
        (p := fun other : Suffix => other.letters.isPrefixOf (suffix.letters ++ rest)) found
      rw [eq_of_isPrefix (List.isPrefixOf_iff_prefix.mp begins)
        (List.prefix_append suffix.letters rest)]
  rw [scan?, here, Option.map_some, List.drop_left]

theorem power?_eq_none (suffix : Suffix) (rest : List Char) :
    Numeral.power? (suffix.letters ++ rest) = none := by
  obtain ⟨c, more, letters, behind⟩ := suffix.letters_eq_cons
  rw [letters, List.cons_append, Numeral.power?, if_neg]
  simp only [Bool.and_eq_true, Bool.or_eq_true, decide_eq_true_eq, Bool.not_eq_true',
    List.isEmpty_eq_false_iff]
  rintro ⟨letter, some_digit⟩
  obtain ⟨d, more, rfl, other, _, _, no_sign⟩ := behind letter
  have unsigned : Numeral.afterSign (d :: more ++ rest) = d :: more ++ rest := by
    rw [List.cons_append, Numeral.afterSign.eq_3]
    · rintro after same
      exact no_sign (.inr (List.cons.inj same).1)
    · rintro after same
      exact no_sign (.inl (List.cons.inj same).1)
  rw [unsigned, Numeral.digits_eq_nil] at some_digit
  · exact some_digit rfl
  · intro e first
    cases first
    exact not_isDigit_of_not_isDecimalDigit other

/-- A suffix ends every literal. -/
theorem ends (suffix : Suffix) (rest : List Char) (l : Literal) :
    l.Ends (suffix.letters ++ rest) := by
  obtain ⟨c, more, letters, _⟩ := suffix.letters_eq_cons
  have first : c ∈ suffix.letters := by
    rw [letters]
    exact List.mem_cons_self ..
  have apart := not_in_number_of_mem first
  refine ⟨fun d same => ?_, fun _ _ same => ?_, fun _ => suffix.power?_eq_none rest⟩
  · rw [letters] at same
    cases same
    exact not_isDigit_of_not_isDecimalDigit apart.1
  · rw [letters] at same
    cases same
    exact apart.2.1 rfl

end Suffix

end CalcLength
