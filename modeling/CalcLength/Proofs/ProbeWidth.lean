import CalcLength.Probe
import CalcLength.Proofs.Binary64.Product
import CalcLength.Proofs.Suffixed

namespace CalcLength

open Binary64 (isNegative magnitude)

section Positive

variable {x : Float} (finite : x.isFinite = true) (positive : 0 < x)
include finite positive

/-- A positive number is written as a literal that may be the number of a length. -/
theorem Number.exists_literal_of_positive :
    ∃ l : Literal, l.text = write x ∧ l.value = x ∧ l.Proper := by
  obtain ⟨l, text, value, proper⟩ := exists_literal finite
  have unsigned := Binary64.not_isNegative_of_positive finite positive
  have same := Binary64.eq_signed_magnitude finite
  rw [unsigned, if_neg Bool.false_ne_true] at same
  refine ⟨l, ?_, value.trans same, proper⟩
  rw [write_of_isFinite finite, unsigned, if_neg Bool.false_ne_true, text]

end Positive

namespace ProbeShape

/-- What a probe that is so many units wide has behind the name of the property. -/
def width (amount : Float) (unit : RelativeUnit) : List Char :=
  Number.write amount ++ unit.letters

theorem css_wide (amount : Float) (unit : RelativeUnit) :
    (wide amount unit).css = "width:" ++ String.ofList (width amount unit) := by
  rw [css, Number.text, RelativeUnit.name, width, String.ofList_append, String.append_assoc]

/-- The width is one length, with the amount as its number. -/
theorem split_width {amount : Float} (finite : amount.isFinite = true) (positive : 0 < amount)
    (unit : RelativeUnit) :
    Piece.split (width amount unit) = [.length (Number.write amount) (.relative unit)] ∧
      Numeral.read? (Number.write amount) = some amount := by
  obtain ⟨l, text, value, proper⟩ := Number.exists_literal_of_positive finite positive
  have found := Piece.scan?_length proper (.relative unit) []
  rw [text, List.append_nil] at found
  constructor
  · rw [width]
    exact (Piece.split_length found).trans (by rw [Piece.split])
  · rw [← text, Numeral.read?_text, value]

theorem pixels_width {amount : Float} (finite : amount.isFinite = true) (positive : 0 < amount)
    {unit : RelativeUnit} {scale : Scale} {ratio : Float} (known : scale.pixels? unit = some ratio)
    (finite' : (amount * ratio).isFinite = true) (axis : Axis) :
    Calc.pixels scale axis (width amount unit) = .ok (amount * ratio) := by
  obtain ⟨l, text, value, proper⟩ := Number.exists_literal_of_positive finite positive
  have product : (Leaf.length l (.relative unit)).pixels scale axis = .ok (amount * ratio) := by
    rw [Leaf.pixels, Scale.ratio, known, value]
    rfl
  have worth := Leaf.value_eq product
  have measured : (Leaf.length l (.relative unit)).Measured scale axis (Leaf.value scale axis) :=
    ⟨proper, by rw [worth, product], fun _ => by rw [worth, finite']⟩
  have evaluated := Calc.pixels_of_leaf measured (by rw [worth, finite'])
  rw [worth, Leaf.text, text] at evaluated
  exact evaluated

/-- The width of a probe is read back as the length that the probe is to measure, so probes of other
amounts or units look different. -/
theorem wide_css_reads_back {amount : Float} (finite : amount.isFinite = true)
    (positive : 0 < amount) (unit : RelativeUnit) :
    ∃ text : String, (wide amount unit).css = "width:" ++ text ∧
      (∃ number, Piece.split text.toList = [.length number (.relative unit)] ∧
        Numeral.read? number = some amount) ∧
      (∀ (scale : Scale) (axis : Axis) (ratio : Float), scale.pixels? unit = some ratio →
        (amount * ratio).isFinite = true →
        Calc.pixels scale axis text.toList = .ok (amount * ratio)) ∧
      ∀ (amount' : Float) (unit' : RelativeUnit), amount'.isFinite = true → 0 < amount' →
        (wide amount' unit').css = (wide amount unit).css → amount' = amount ∧ unit' = unit := by
  obtain ⟨split, read⟩ := split_width finite positive unit
  refine ⟨String.ofList (width amount unit), css_wide amount unit, ⟨Number.write amount, ?_, read⟩,
    fun scale axis ratio known finite' => ?_, fun amount' unit' finite' positive' same => ?_⟩
  · rw [String.toList_ofList, split]
  · rw [String.toList_ofList]
    exact pixels_width finite positive known finite' axis
  · obtain ⟨split', read'⟩ := split_width finite' positive' unit'
    have texts : width amount' unit' = width amount unit := by
      rw [css_wide, css_wide] at same
      have lists := congrArg String.toList same
      simp only [String.toList_append, String.toList_ofList] at lists
      exact List.append_cancel_left lists
    rw [texts, split] at split'
    obtain ⟨numbers, units⟩ := Piece.length.inj (List.head_eq_of_cons_eq split')
    rw [← numbers, read] at read'
    exact ⟨(Option.some.inj read').symm, (Suffix.relative.inj units).symm⟩

theorem wide_css_reads_back_of_em :
    (wide 12.5 .em).css = "width:12.5em" ∧
      Calc.pixels ((Scale.ofPercents 1 1).set .em (-16)) .vertical "12.5em".toList = .ok (-200) ∧
      (wide 12.5 .ex).css ≠ (wide 12.5 .em).css := by
  have finite : (12.5 : Float).isFinite = true := by decide +kernel
  have positive : (0 : Float) < 12.5 := by decide +kernel
  have css : (wide 12.5 .em).css = "width:" ++ "12.5em" := by decide +kernel
  obtain ⟨text, css', _, reads, differ⟩ := wide_css_reads_back finite positive .em
  obtain rfl : "12.5em" = text := by
    have lists := congrArg String.toList (css.symm.trans css')
    rw [String.toList_append, String.toList_append] at lists
    exact String.toList_injective (List.append_cancel_left lists)
  have evaluated :=
    reads ((Scale.ofPercents 1 1).set .em (-16)) .vertical (-16) rfl (by decide +kernel)
  exact ⟨css, evaluated.trans (by decide +kernel),
    fun same => nomatch (differ 12.5 .ex finite positive same).2⟩

end ProbeShape

end CalcLength
