import CalcLength.Proofs.Binary64.Product
import CalcLength.Proofs.Completeness

namespace CalcLength

/-- Whether a container has some size in each unit: finite, and not nothing. -/
structure Scale.IsPositive (scale : Scale) : Prop where
  percent : ∀ axis, (scale.percent axis).isFinite = true ∧ 0 < scale.percent axis
  unit : ∀ unit, ∃ pixels, scale.pixels? unit = some pixels ∧ pixels.isFinite = true ∧ 0 < pixels

namespace Scale.IsPositive

variable {scale : Scale} (positive : scale.IsPositive) (axis : Axis)
include positive

theorem exists_ratio (suffix : Suffix) :
    ∃ ratio, scale.ratio axis suffix = .ok ratio ∧ ratio.isFinite = true ∧ 0 < ratio := by
  cases suffix with
  | relative unit =>
    obtain ⟨pixels, known, finite, above⟩ := positive.unit unit
    exact ⟨pixels, by rw [ratio, known], finite, above⟩
  | physical unit => exact ⟨unit.pixels, rfl, by cases unit <;> decide +kernel⟩
  | percent => exact ⟨scale.percent axis, rfl, positive.percent axis⟩
  | pixel => exact ⟨1, rfl, by decide +kernel⟩

theorem exists_pixels_length (l : Literal) (suffix : Suffix) :
    ∃ ratio, (Leaf.length l suffix).pixels scale axis = .ok (l.value * ratio) ∧
      ratio.isFinite = true ∧ 0 < ratio := by
  obtain ⟨ratio, known, finite, above⟩ := positive.exists_ratio axis suffix
  refine ⟨ratio, ?_, finite, above⟩
  rw [Leaf.pixels, known]
  rfl

theorem pixels_leaf (leaf : Leaf) : leaf.pixels scale axis = .ok (leaf.value scale axis) := by
  cases leaf with
  | literal l => rfl
  | length l suffix =>
    obtain ⟨ratio, pixels, _⟩ := positive.exists_pixels_length axis l suffix
    rw [Leaf.value_eq pixels, pixels]

/-- No length brings a sign, not even one of no size or one beyond the largest double. -/
theorem not_negative (leaf : Leaf) : leaf.negative (Leaf.value scale axis) = false := by
  cases leaf with
  | literal l => rfl
  | length l suffix =>
    obtain ⟨ratio, pixels, finite, above⟩ := positive.exists_pixels_length axis l suffix
    rw [Leaf.negative, Leaf.value_eq pixels]
    exact Binary64.not_isNegative_mul l.numeral.decimal.hasSign_toFloat finite above

end Scale.IsPositive

namespace Calc

variable {scale : Scale} {axis : Axis} {values : Leaf → Float}

/-- A spelled sentence with a length that is not finite is taken for a text with
letters that belong to nothing. -/
theorem value_of_infinite (s : Sentence Leaf) {cs : List Char} (spells : Spells cs s.words)
    (proper : ∀ leaf ∈ s.operands, leaf.Proper)
    (pixels : ∀ leaf ∈ s.operands, leaf.pixels scale axis = .ok (values leaf)) {leaf : Leaf}
    (member : leaf ∈ s.operands) (isLength : leaf.IsLength)
    (infinite : (values leaf).isFinite = false) :
    value scale axis cs = .error (.malformed .illegalCharacter) := by
  obtain ⟨plain, replaced, _, scanned⟩ : ScansAs scale axis values none cs s.words :=
    spells.scansAs (s.unattached _) (fun leaf member => proper leaf (s.mem_operands.mpr member))
      (fun leaf member => pixels leaf (s.mem_operands.mpr member)) (.inr rfl)
  rw [Leaf.scanned_of_not_isFinite (s.mem_operands.mp member) isLength infinite] at scanned
  simp only [value, replaced, Formula.read, scanned]
  rfl

variable (s : Sentence Leaf) {cs front word back : List Char}

/-- In a container of some size a sentence comes to the value of its tree, or is refused because
that is not finite, as long as each of its lengths is finite by itself. But a length beyond the
largest double has the whole sentence refused as malformed, however it is used. -/
theorem pixels_of_positive (positive : scale.IsPositive) (proper : ∀ leaf ∈ s.operands, leaf.Proper)
    (spells : Spells cs s.words) (shallow : s.nesting (fun _ => 0) ≤ Formula.maxNesting)
    (space : ∀ c ∈ front, Text.isSpace c = true) (space' : ∀ c ∈ back, Text.isSpace c = true)
    (prefixed : word = [] ∨ word = ['c', 'a', 'l', 'c']) :
    ((∀ leaf ∈ s.operands, leaf.IsLength → (leaf.value scale axis).isFinite = true) →
      pixels scale axis (front ++ (word ++ cs) ++ back) =
        if (s.formula (Leaf.value scale axis)).value.isFinite then
          .ok (s.formula (Leaf.value scale axis)).value
        else .error .notFinite) ∧
    ∀ leaf ∈ s.operands, leaf.IsLength → (leaf.value scale axis).isFinite = false →
      pixels scale axis (front ++ (word ++ cs) ++ back) =
        .error (.malformed .illegalCharacter) := by
  have known : ∀ leaf ∈ s.operands, leaf.pixels scale axis = .ok (leaf.value scale axis) :=
    fun leaf _ => positive.pixels_leaf axis leaf
  have spells := body_spells s spells space space' prefixed
  constructor
  · intro finite
    have unsigned : (fun leaf : Leaf => if leaf.negative (Leaf.value scale axis) then 1 else 0) =
        fun _ => 0 := by
      funext leaf
      rw [positive.not_negative axis leaf]
      rfl
    have measured : ∀ leaf ∈ s.operands, leaf.Measured scale axis (Leaf.value scale axis) :=
      fun leaf member => ⟨proper leaf member, known leaf member, finite leaf member⟩
    rw [pixels, value_of_spells s spells measured (unsigned ▸ shallow)]
  · intro leaf member isLength infinite
    rw [pixels, value_of_infinite s spells proper known member isLength infinite]

theorem pixels_of_positive_difference :
    let scale : Scale := ⟨1, 1, fun _ => some 16⟩
    pixels scale .vertical " calc2em - 1 / 1e400".toList = .ok 32 ∧
      pixels scale .vertical "1 / 1e308em".toList = .error (.malformed .illegalCharacter) := by
  intro scale
  let one : Leaf := .literal (.ofDigits ['1'] (List.all_eq_true.mp rfl) (List.cons_ne_nil _ _))
  let two : Leaf :=
    .length (.ofDigits ['2'] (List.all_eq_true.mp rfl) (List.cons_ne_nil _ _)) (.relative .em)
  let infinite : Leaf :=
    .literal (.powerOfTen ['4', '0', '0'] (List.all_eq_true.mp rfl) (List.cons_ne_nil _ _))
  let large : Leaf := .length
    (.powerOfTen ['3', '0', '8'] (List.all_eq_true.mp rfl) (List.cons_ne_nil _ _)) (.relative .em)
  let reciprocal (leaf : Leaf) : Phrase Leaf (.chain .product) :=
    @Phrase.join _ .product (.single (.unsigned (.operand one))) .divide
      rfl (.unsigned (.operand leaf))
  let difference : Sentence Leaf :=
    .join (.single (.single (.unsigned (.operand two)))) .subtract rfl (reciprocal infinite)
  have positive : scale.IsPositive :=
    ⟨fun axis => by cases axis <;> decide +kernel, fun _ => ⟨16, rfl, by decide +kernel⟩⟩
  have space : ∀ c ∈ [' '], Text.isSpace c = true := List.all_eq_true.mp rfl
  have nothing : ∀ c ∈ ([] : List Char), Text.isSpace c = true := nofun
  constructor
  · have spells : Spells "2em - 1 / 1e400".toList difference.words :=
      .word (.operand two)
        (.blank rfl (.word (.operator .subtract) (.blank rfl (.word (.operand one) (.blank rfl
        (.word (.operator .divide) (.blank rfl (.word (.operand infinite) .nil))))))))
    have proper : ∀ leaf ∈ difference.operands, leaf.Proper := by
      intro leaf member
      rcases List.mem_cons.mp member with rfl | member
      · exact nofun
      · rcases List.mem_pair.mp member with rfl | rfl <;> exact trivial
    have finite : ∀ leaf ∈ difference.operands, leaf.IsLength →
        (leaf.value scale .vertical).isFinite = true := by
      intro leaf member isLength
      rcases List.mem_cons.mp member with rfl | member
      · decide +kernel
      · rcases List.mem_pair.mp member with rfl | rfl <;> cases isLength
    have result :=
      (pixels_of_positive difference positive proper spells (by decide) space nothing (.inr rfl)).1
        finite
    exact result.trans (by decide +kernel)
  · have spells : Spells "1 / 1e308em".toList (reciprocal large).words :=
      .word (.operand one)
        (.blank rfl (.word (.operator .divide) (.blank rfl (.word (.operand large) .nil))))
    have proper : ∀ leaf ∈ (reciprocal large).operands, leaf.Proper := by
      intro leaf member
      rcases List.mem_pair.mp member with rfl | rfl
      · exact trivial
      · exact nofun
    have member : large ∈ (reciprocal large).operands :=
      List.mem_cons_of_mem _ (List.mem_singleton_self _)
    refine (pixels_of_positive (.single (reciprocal large)) positive proper spells ?_ nothing
      nothing (.inl rfl)).2 large member trivial ?_
    · decide
    · decide +kernel

/-- A sentence that is not nested too deeply, in a container of some size, is refused as malformed.
Its number alone is read as the infinity that it is. -/
theorem sentence_malformed :
    let scale : Scale := ⟨1, 1, fun _ => some 16⟩
    let leaf : Leaf :=
      .length (.powerOfTen ['4', '0', '0'] (List.all_eq_true.mp rfl) (List.cons_ne_nil _ _)) .pixel
    let s : Sentence Leaf :=
      .single (.single (.unsigned (.group (.single (.single (.unsigned (.operand leaf)))))))
    (scale.IsPositive ∧ (∀ leaf ∈ s.operands, leaf.Proper) ∧ Spells "(1e400px)".toList s.words ∧
      s.nesting (fun _ => 0) ≤ Formula.maxNesting) ∧
    pixels scale .horizontal "calc(1e400px)".toList = .error (.malformed .illegalCharacter) ∧
    pixels scale .horizontal "calc(1e400)".toList = .error .notFinite := by
  intro scale leaf s
  refine ⟨⟨⟨fun axis => ?_, fun _ => ⟨16, rfl, by decide +kernel⟩⟩, fun leaf member => ?_, ?_,
    by decide⟩, by decide +kernel, by decide +kernel⟩
  · cases axis <;> decide +kernel
  · rw [List.mem_singleton.mp member]
    exact nofun
  · exact .word .opening (.word (.operand leaf) (.word .closing .nil))

end Calc

end CalcLength
