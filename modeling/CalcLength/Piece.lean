import CalcLength.Text.Digit
import CalcLength.Unit

namespace CalcLength

/-- A part of an expression: a length, or a character that belongs to none. -/
inductive Piece
  | plain (c : Char)
  | length (number : List Char) (suffix : Suffix)
deriving DecidableEq, Repr

namespace Piece

def text : Piece → List Char
  | plain c => [c]
  | length number suffix => number ++ suffix.letters

/-- The character that a text in pieces begins with. -/
def first? : List Piece → Option Char
  | [] => none
  | piece :: _ => piece.text.head?

def digits (cs : List Char) : List Char :=
  cs.takeWhile Text.isDecimalDigit

/-- A point and the digits behind it; nothing if there are none. -/
def fraction : List Char → List Char
  | '.' :: rest => if (digits rest).isEmpty then [] else '.' :: digits rest
  | _ => []

def sign : List Char → List Char
  | '+' :: _ => ['+']
  | '-' :: _ => ['-']
  | _ => []

/-- A power of ten: the letter, perhaps a sign, and digits; nothing if there are no digits. -/
def power : List Char → List Char
  | [] => []
  | letter :: rest =>
    let size := digits (rest.drop (sign rest).length)
    if (letter = 'e' || letter = 'E') && !size.isEmpty then letter :: (sign rest ++ size) else []

/-- The number at the head of the text that a length may begin with: digits of any script before a
fraction, after a point, or both, and perhaps a power of ten. -/
def number (cs : List Char) : List Char :=
  let whole := digits cs
  let fraction := fraction (cs.drop whole.length)
  if whole.isEmpty && fraction.isEmpty then []
  else whole ++ fraction ++ power (cs.drop (whole ++ fraction).length)

/-- The length at the head of the text, and the rest of the text. -/
def scan? (cs : List Char) : Option (List Char × Suffix × List Char) :=
  let number := number cs
  if number.isEmpty then none
  else (Suffix.scan? (cs.drop number.length)).map (number, ·)

theorem digits_isPrefix (cs : List Char) : digits cs <+: cs :=
  List.takeWhile_prefix _

theorem fraction_isPrefix (cs : List Char) : fraction cs <+: cs := by
  unfold fraction
  split
  · split
    · exact List.nil_prefix
    · exact List.cons_prefix_cons.mpr ⟨rfl, digits_isPrefix _⟩
  · exact List.nil_prefix

theorem sign_isPrefix (cs : List Char) : sign cs <+: cs := by
  unfold sign
  split
  · exact ⟨_, rfl⟩
  · exact ⟨_, rfl⟩
  · exact List.nil_prefix

/-- A beginning of the text, followed by a beginning of what is left, is a beginning of the text. -/
theorem append_isPrefix {first second cs : List Char} (begins : first <+: cs)
    (goes_on : second <+: cs.drop first.length) : first ++ second <+: cs := by
  obtain ⟨rest, rfl⟩ := begins
  rw [List.drop_left] at goes_on
  exact (List.prefix_append_right_inj first).mpr goes_on

theorem power_isPrefix (cs : List Char) : power cs <+: cs := by
  cases cs with
  | nil => exact List.nil_prefix
  | cons letter rest =>
    simp only [power]
    split
    · exact List.cons_prefix_cons.mpr ⟨rfl, append_isPrefix (sign_isPrefix _) (digits_isPrefix _)⟩
    · exact List.nil_prefix

theorem number_isPrefix (cs : List Char) : number cs <+: cs := by
  simp only [number]
  split
  · exact List.nil_prefix
  · exact append_isPrefix (append_isPrefix (digits_isPrefix _) (fraction_isPrefix _))
      (power_isPrefix _)

theorem scan?_eq_some {cs number rest : List Char} {suffix : Suffix}
    (found : scan? cs = some (number, suffix, rest)) :
    cs = number ++ suffix.letters ++ rest ∧ number ≠ [] := by
  simp only [scan?, Option.ite_none_left_eq_some, Option.map_eq_some_iff, Prod.mk.injEq] at found
  obtain ⟨some_number, ⟨_, _⟩, here, rfl, rfl, rfl⟩ := found
  have apart := Suffix.scan?_eq_some here
  refine ⟨?_, fun none => some_number (List.isEmpty_iff.mpr none)⟩
  rw [List.append_assoc, ← apart]
  exact List.prefix_iff_eq_append.mp (number_isPrefix cs) |>.symm

theorem scan?_length_lt {cs number rest : List Char} {suffix : Suffix}
    (found : scan? cs = some (number, suffix, rest)) : rest.length < cs.length := by
  obtain ⟨rfl, some_number⟩ := scan?_eq_some found
  have positive := List.length_pos_iff.mpr some_number
  simp only [List.length_append]
  omega

/-- A text in pieces: from left to right, each length that starts before the next one could. -/
def split (cs : List Char) : List Piece :=
  match cs with
  | [] => []
  | c :: rest =>
    match _ : scan? (c :: rest) with
    | some (number, suffix, after) => length number suffix :: split after
    | none => plain c :: split rest
termination_by cs.length
decreasing_by
  · exact scan?_length_lt ‹_›
  · exact Nat.lt_succ_self _

/-- The pieces make up the text. -/
theorem flatMap_text_split (cs : List Char) : (split cs).flatMap text = cs := by
  fun_induction split cs with
  | case1 => rfl
  | case2 c rest number suffix after found ih =>
    rw [List.flatMap_cons, ih, (scan?_eq_some found).1]
    rfl
  | case3 c rest _ ih =>
    rw [List.flatMap_cons, ih]
    rfl

end Piece

end CalcLength
