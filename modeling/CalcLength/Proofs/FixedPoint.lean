import CalcLength.Proofs.Binary64.Product
import CalcLength.Proofs.Completeness

namespace CalcLength

open Binary64 (isNegative magnitude)

/-- A number of pixels, behind a minus sign if it is to be negative. -/
def Literal.signedPixels (l : Literal) (negative : Bool) : Phrase Leaf .unary :=
  if negative then .signed .subtract rfl (.unsigned (.operand (.length l .pixel)))
    else .unsigned (.operand (.length l .pixel))

namespace Literal

variable {l : Literal}

theorem mem_operands_signedPixels {negative : Bool} {leaf : Leaf}
    (member : leaf ∈ (l.signedPixels negative).operands) : leaf = .length l .pixel := by
  cases negative with
  | false => exact List.mem_singleton.mp member
  | true => exact List.mem_singleton.mp member

theorem nesting_signedPixels (own : Leaf → Nat) (negative : Bool) :
    (l.signedPixels negative).nesting own ≤ own (.length l .pixel) + 1 := by
  cases negative with
  | false => exact Nat.le_succ _
  | true => exact Nat.le_refl _

section Written

variable {x : Float} (finite : x.isFinite = true)
include finite

/-- A finite number of pixels is written as a length, its sign apart. -/
theorem spells_signedPixels (text : l.text = Number.writeMagnitude x) {rest : List Char}
    {words : List (Lexeme Leaf)} (spells : Spells rest words) :
    Spells (Number.write x ++ (['p', 'x'] ++ rest))
      ((l.signedPixels (isNegative x)).words ++ words) := by
  have unsigned : Spells (Number.writeMagnitude x ++ (['p', 'x'] ++ rest))
      (.operand (.length l .pixel) :: words) := by
    rw [← text, ← List.append_assoc]
    exact spells.word (.operand (.length l .pixel))
  rw [Number.write_of_isFinite finite, signedPixels]
  split
  · exact unsigned.word (.operator .subtract)
  · exact unsigned

/-- The length comes to the number's magnitude wherever it is measured. -/
theorem measured_signedPixels (proper : l.Proper) (value : l.value = magnitude x) (scale : Scale)
    (axis : Axis) :
    ∀ leaf ∈ (l.signedPixels (isNegative x)).operands,
      leaf.Measured scale axis fun _ => magnitude x := by
  intro leaf member
  rw [mem_operands_signedPixels member]
  have finite' := Binary64.isFinite_magnitude finite
  refine ⟨proper, ?_, fun _ => finite'⟩
  show Except.ok (l.value * 1) = Except.ok (magnitude x)
  rw [value, Binary64.mul_one_of_isFinite finite']

theorem value_signedPixels :
    ((l.signedPixels (isNegative x)).formula fun _ => magnitude x).value = x := by
  have signed := Binary64.eq_signed_magnitude finite
  rw [signedPixels]
  split
  · rename_i negative
    rwa [negative, if_pos rfl] at signed
  · rename_i positive
    rwa [if_neg positive] at signed

end Written

end Literal

namespace Calc

theorem isFinite_of_pixels {scale : Scale} {axis : Axis} {cs : List Char} {x : Float}
    (computed : pixels scale axis cs = .ok x) : x.isFinite = true := by
  unfold pixels at computed
  split at computed
  · split at computed
    · rename_i finite
      cases computed
      exact finite
    · cases computed
  · cases computed

/-- The text of a finite number of pixels comes to that number, by itself and
as what is to be calculated. -/
theorem pixels_writePixels {x : Float} (finite : x.isFinite = true) (scale : Scale) (axis : Axis) :
    pixels scale axis (writePixels x).toList = .ok x ∧
      pixels scale axis ("calc(" ++ writePixels x ++ ")").toList = .ok x := by
  obtain ⟨l, text, value, proper⟩ := Number.exists_literal finite
  let values : Leaf → Float := fun _ => magnitude x
  let sum : Sentence Leaf := .single (.single (l.signedPixels (isNegative x)))
  let group : Sentence Leaf := .single (.single (.unsigned (.group sum)))
  have measured : ∀ leaf ∈ sum.operands, leaf.Measured scale axis values :=
    Literal.measured_signedPixels finite proper value scale axis
  have tree : (sum.formula values).value = x := Literal.value_signedPixels finite
  have finite' : (sum.formula values).value.isFinite = true := by rw [tree, finite]
  have deep : sum.nesting (fun leaf => if leaf.negative values then 1 else 0) ≤ 2 := by
    refine (Literal.nesting_signedPixels _ _).trans (Nat.succ_le_succ ?_)
    split <;> decide
  have alone : (writePixels x).toList = [] ++ (Number.write x ++ (['p', 'x'] ++ [])) := by
    simp [writePixels]
  have enclosed : ("calc(" ++ writePixels x ++ ")").toList =
      ['c', 'a', 'l', 'c'] ++ ('(' :: (Number.write x ++ (['p', 'x'] ++ [')']))) := by
    simp [writePixels]
  constructor
  · have spells : Spells (Number.write x ++ (['p', 'x'] ++ [])) sum.words :=
      List.append_nil sum.words ▸ Literal.spells_signedPixels finite text .nil
    have shallow :
        sum.nesting (fun leaf => if leaf.negative values then 1 else 0) ≤ Formula.maxNesting :=
      deep.trans (by decide)
    rw [alone, pixels_of_spells sum spells measured shallow (.inl rfl) finite', tree]
  · have spells : Spells ('(' :: (Number.write x ++ (['p', 'x'] ++ [')']))) group.words :=
      (Literal.spells_signedPixels finite text (.word .closing .nil)).word .opening
    have shallow :
        group.nesting (fun leaf => if leaf.negative values then 1 else 0) ≤ Formula.maxNesting :=
      (Nat.succ_le_succ deep).trans (by decide)
    rw [enclosed, pixels_of_spells group spells measured shallow (.inr rfl) finite']
    exact congrArg Except.ok tree

/-- What an expression comes to, written as a length, comes to the same number whatever the
scale and the axis are, with or without the word and the parentheses around it. So it is
written the same way again. -/
theorem result_evaluates_to_itself {scale : Scale} {axis : Axis} {text result : String} {x : Float}
    (evaluated : evaluate scale axis text = .ok result)
    (computed : pixels scale axis text.toList = .ok x) (scale' : Scale) (axis' : Axis) :
    pixels scale' axis' result.toList = .ok x ∧
      pixels scale' axis' ("calc(" ++ result ++ ")").toList = .ok x ∧
      evaluate scale' axis' result = .ok result ∧
        evaluate scale' axis' ("calc(" ++ result ++ ")") = .ok result := by
  obtain rfl : writePixels x = result := by
    rw [evaluate, computed] at evaluated
    exact Except.ok.inj evaluated
  obtain ⟨alone, enclosed⟩ := pixels_writePixels (isFinite_of_pixels computed) scale' axis'
  refine ⟨alone, enclosed, ?_, ?_⟩
  · rw [evaluate, alone]
    rfl
  · rw [evaluate, enclosed]
    rfl

/-- The sign of zero is kept. -/
theorem result_evaluates_to_itself_of_zero :
    pixels (.ofPercents 2 3) .vertical "-0px".toList = .ok (-0) ∧
      evaluate (.ofPercents 2 3) .vertical "calc(-0px)" = .ok "-0px" := by
  have evaluated : evaluate ((Scale.ofPercents 1 1).set .em 16) .horizontal "calc(-1 * 0em)" =
      .ok "-0px" := by decide +kernel
  have computed : pixels ((Scale.ofPercents 1 1).set .em 16) .horizontal "calc(-1 * 0em)".toList =
      .ok (-0) := by decide +kernel
  obtain ⟨alone, _, _, enclosed⟩ :=
    result_evaluates_to_itself evaluated computed (.ofPercents 2 3) .vertical
  exact ⟨alone, enclosed⟩

end Calc

end CalcLength
