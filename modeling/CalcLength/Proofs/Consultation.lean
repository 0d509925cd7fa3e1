import CalcLength.Proofs.Completeness
import CalcLength.Proofs.Separator
import Mathlib.Data.List.TakeWhile

namespace CalcLength

namespace Text

theorem not_isDecimalDigit_of_isSpace {c : Char} (space : isSpace c = true) :
    isDecimalDigit c = false := by
  have apart : ∀ run ∈ spaceRuns, ∀ first ∈ digitZeros, run.2 < first ∨
      first + 10 ≤ run.1 := by decide
  obtain ⟨run, is_run, inside⟩ := List.any_eq_true.mp space
  rw [Bool.and_eq_true, decide_eq_true_eq, decide_eq_true_eq] at inside
  refine List.any_eq_false.mpr fun first is_zero inside' => ?_
  rw [Bool.and_eq_true, decide_eq_true_eq, decide_eq_true_eq] at inside'
  have apart := apart run is_run first is_zero
  omega

/-- What trimming a text takes off is white space. -/
theorem exists_eq_append_trim (cs : List Char) : ∃ front back, cs = front ++ (trim cs ++ back) ∧
    (∀ c ∈ front, isSpace c = true) ∧ (∀ c ∈ back, isSpace c = true) := by
  refine ⟨cs.takeWhile isSpace, ((cs.dropWhile isSpace).reverse.takeWhile isSpace).reverse, ?_,
    fun c member => List.mem_takeWhile_imp member,
      fun c member => List.mem_takeWhile_imp (List.mem_reverse.mp member)⟩
  rw [trim, ← List.reverse_append, List.takeWhile_append_dropWhile, List.reverse_reverse,
    List.takeWhile_append_dropWhile]

end Text

theorem Separates.of_isSpace {c : Char} (space : Text.isSpace c = true) : Separates c where
  no_digit := Text.not_isDecimalDigit_of_isSpace space
  no_point := by
    rintro rfl
    cases space
  no_letter := by
    rintro (rfl | rfl) <;> cases space
  no_sign := by
    rintro (rfl | rfl) <;> cases space
  no_suffix member := by
    rw [Suffix.not_isSpace_of_mem_alphabet c member] at space
    cases space

namespace Piece

def suffix? : Piece → Option Suffix
  | plain _ => none
  | length _ suffix => some suffix

/-- What the lengths in a text are measured in, from left to right. -/
def suffixes (cs : List Char) : List Suffix :=
  (split cs).filterMap suffix?

theorem suffixes_nil : suffixes [] = [] := by
  rw [suffixes, split.eq_1]
  rfl

/-- Characters before the first digit or point have no part in a length. -/
theorem suffixes_append_left {front : List Char}
    (outside : ∀ c ∈ front, Text.isDecimalDigit c = false ∧ c ≠ '.') (cs : List Char) :
    suffixes (front ++ cs) = suffixes cs := by
  induction front with
  | nil => rfl
  | cons c front ih =>
    obtain ⟨no_digit, no_point⟩ := outside c (List.mem_cons_self ..)
    rw [← ih fun d member => outside d (List.mem_cons_of_mem _ member), List.cons_append, suffixes,
      split_plain (scan?_eq_none_of_head no_digit no_point)]
    rfl

theorem suffixes_append_space {front : List Char} (space : ∀ c ∈ front, Text.isSpace c = true)
    (cs : List Char) : suffixes (front ++ cs) = suffixes cs := by
  refine suffixes_append_left (fun c member => ?_) cs
  have separates : Separates c := .of_isSpace (space c member)
  exact ⟨separates.no_digit, separates.no_point⟩

theorem suffixes_append_right {back : List Char} (space : ∀ c ∈ back, Text.isSpace c = true)
    (cs : List Char) : suffixes (cs ++ back) = suffixes cs := by
  cases back with
  | nil => rw [List.append_nil]
  | cons c back =>
    have separates : Separates c := .of_isSpace (space c (List.mem_cons_self ..))
    have none := suffixes_append_space (fun d member => space d (List.mem_cons_of_mem c member)) []
    rw [List.append_nil, suffixes_nil] at none
    rw [suffixes, split_append_separator separates, List.filterMap_append]
    exact (congrArg (suffixes cs ++ ·) none).trans (List.append_nil _)

end Piece

/-- Whether two scales, each along an axis, size all that is to be measured alike. -/
structure Scale.Agree (scale scale' : Scale) (axis axis' : Axis)
    (suffixes : List Suffix) : Prop where
  unit : ∀ unit, .relative unit ∈ suffixes → scale.pixels? unit = scale'.pixels? unit
  percent : .percent ∈ suffixes → scale.percent axis = scale'.percent axis'

theorem Scale.Agree.ratio {scale scale' : Scale} {axis axis' : Axis} {suffixes : List Suffix}
    (agree : scale.Agree scale' axis axis' suffixes) {suffix : Suffix}
    (member : suffix ∈ suffixes) : scale.ratio axis suffix = scale'.ratio axis' suffix := by
  cases suffix with
  | relative unit => rw [Scale.ratio, Scale.ratio, agree.unit unit member]
  | physical unit => rfl
  | percent => exact congrArg Except.ok (agree.percent member)
  | pixel => rfl

theorem Scale.ratio_set_of_ne {scale : Scale} {unit : RelativeUnit} {suffix : Suffix}
    (other : suffix ≠ .relative unit) (axis : Axis) (x : Float) :
    (scale.set unit x).ratio axis suffix = scale.ratio axis suffix := by
  cases suffix with
  | relative unit' =>
    rw [Scale.ratio, Scale.ratio, set_pixels?_of_ne scale fun same => other (congrArg _ same)]
  | physical => rfl
  | percent => exact congrArg Except.ok (percent_set scale unit x axis)
  | pixel => rfl

def Axis.other : Axis → Axis
  | horizontal => vertical
  | vertical => horizontal

/-- The scale of the container turned on its side. -/
def Scale.transposed (scale : Scale) : Scale :=
  ⟨scale.percentOfHeight, scale.percentOfWidth, scale.pixels?⟩

namespace Calc

variable {scale scale' : Scale} {axis axis' : Axis} {cs : List Char}

/-- What is taken off an expression has no part in a length. -/
theorem suffixes_body (cs : List Char) : Piece.suffixes (body cs) = Piece.suffixes cs := by
  obtain ⟨front, back, whole, space, space'⟩ := Text.exists_eq_append_trim cs
  have trimmed : Piece.suffixes (Text.trim cs) = Piece.suffixes cs := by
    conv_rhs => rw [whole]
    rw [Piece.suffixes_append_space space, Piece.suffixes_append_right space']
  rw [← trimmed, body, Text.dropFirst]
  split
  · rename_i word
    have letters : ∀ c ∈ ['c', 'a', 'l', 'c'], Text.isDecimalDigit c = false ∧ c ≠ '.' :=
      List.all_iff_forall_prop.mp rfl
    obtain ⟨rest, text⟩ := List.isPrefixOf_iff_prefix.mp word
    rw [← text, List.drop_left, Piece.suffixes_append_left letters]
  · rfl

theorem inPixels_congr {pieces : List Piece}
    (same : ∀ suffix ∈ pieces.filterMap Piece.suffix?,
      scale.ratio axis suffix = scale'.ratio axis' suffix)
    (before : Option Char) :
    inPixels scale axis before pieces = inPixels scale' axis' before pieces := by
  induction pieces generalizing before with
  | nil => rfl
  | cons piece pieces ih =>
    cases piece with
    | plain c => rw [inPixels, inPixels, ih same]
    | length number suffix =>
      have here : scale.ratio axis suffix = scale'.ratio axis' suffix :=
        same suffix (List.mem_cons_self ..)
      have ih := ih fun suffix member => same suffix (List.mem_cons_of_mem _ member)
      rw [inPixels, inPixels, lengthPixels, lengthPixels, here, ih]

theorem value_congr
    (same : inPixels scale axis none (Piece.split cs) =
      inPixels scale' axis' none (Piece.split cs)) :
    value scale axis cs = value scale' axis' cs := by
  rw [value, value, same]

theorem pixels_congr (same : value scale axis (body cs) = value scale' axis' (body cs)) :
    pixels scale axis cs = pixels scale' axis' cs := by
  rw [pixels, pixels, same]

theorem pixels_congr_of_agree (agree : scale.Agree scale' axis axis' (Piece.suffixes cs)) :
    pixels scale axis cs = pixels scale' axis' cs := by
  refine pixels_congr (value_congr (inPixels_congr (fun suffix member => agree.ratio ?_) none))
  exact suffixes_body cs ▸ member

section Missing

variable {unit : RelativeUnit} (missing : scale.pixels? unit = none) (x : Float)
include missing

theorem lengthPixels_set (axis : Axis) (number : List Char) (suffix : Suffix) :
    lengthPixels scale axis number suffix = .error (.unresolved unit) ∨
      lengthPixels (scale.set unit x) axis number suffix =
        lengthPixels scale axis number suffix := by
  rw [lengthPixels, lengthPixels]
  cases Numeral.read? number with
  | none => exact .inr rfl
  | some y =>
    by_cases named : suffix = .relative unit
    · have fault : scale.ratio axis (.relative unit) = .error (.unresolved unit) := by
        rw [Scale.ratio, missing]
      exact .inl (by rw [named, fault])
    · exact .inr (by rw [Scale.ratio_set_of_ne named])

/-- The first length of a missing unit is the end, and before it the unit makes no difference. -/
theorem inPixels_set (axis : Axis) (before : Option Char) (pieces : List Piece) :
    inPixels scale axis before pieces = .error (.unresolved unit) ∨
      inPixels (scale.set unit x) axis before pieces = inPixels scale axis before pieces := by
  induction pieces generalizing before with
  | nil => exact .inr rfl
  | cons piece pieces ih =>
    cases piece with
    | plain c =>
      rw [inPixels, inPixels]
      rcases ih (some c) with missed | same
      · exact .inl (by rw [missed]; rfl)
      · exact .inr (by rw [same])
    | length number suffix =>
      rw [inPixels, inPixels]
      by_cases apart : standsApart before (Piece.first? pieces) = true
      · rw [if_pos apart, if_pos apart]
        -- Either this length is the one that misses the unit, or both scales replace it alike and
        -- go on.
        rcases lengthPixels_set missing x axis number suffix with missed | same
        · exact .inl (by rw [missed])
        · rw [same]
          cases lengthPixels scale axis number suffix with
          | error fault => exact .inr rfl
          | ok pixels =>
            rcases ih suffix.letters.getLast? with missed | same
            · exact .inl (by simp only [missed]; rfl)
            · exact .inr (by simp only [same])
      · rw [if_neg apart, if_neg apart]
        exact .inr rfl

theorem pixels_set (axis : Axis) (cs : List Char) :
    pixels scale axis cs = .error (.unresolved unit) ∨
      pixels (scale.set unit x) axis cs = pixels scale axis cs := by
  rcases inPixels_set missing x axis none (Piece.split (body cs)) with missed | same
  · exact .inl (by simp only [pixels, value, missed])
  · exact .inr (pixels_congr (value_congr same))

end Missing

theorem missing_of_lengthPixels {unit : RelativeUnit} {number : List Char} {suffix : Suffix}
    (missed : lengthPixels scale axis number suffix = .error (.unresolved unit)) :
    scale.pixels? unit = none := by
  unfold lengthPixels at missed
  split at missed
  · cases missed
  · split at missed
    · cases missed
    · rename_i fault faulty
      cases missed
      unfold Scale.ratio at faulty
      split at faulty
      · cases faulty
      · cases faulty
      · cases faulty
      · split at faulty
        · cases faulty
        · rename_i none
          cases faulty
          exact none

theorem missing_of_inPixels {unit : RelativeUnit} {before : Option Char} {pieces : List Piece}
    (missed : inPixels scale axis before pieces = .error (.unresolved unit)) :
    scale.pixels? unit = none := by
  induction pieces generalizing before with
  | nil => cases missed
  | cons piece pieces ih =>
    cases piece with
    | plain c => exact ih (eq_error_of_map_eq_error missed)
    | length number suffix =>
      rw [inPixels] at missed
      split at missed
      · split at missed
        · exact ih (eq_error_of_map_eq_error missed)
        · rename_i fault faulty
          cases missed
          exact missing_of_lengthPixels faulty
      · cases missed

/-- Only a unit that the scale lacks is missed. -/
theorem missing_of_pixels {unit : RelativeUnit}
    (missed : pixels scale axis cs = .error (.unresolved unit)) : scale.pixels? unit = none := by
  unfold pixels at missed
  split at missed
  · split at missed <;> cases missed
  · rename_i fault faulty
    cases missed
    unfold value at faulty
    split at faulty
    · rename_i plain _
      generalize Formula.read plain = read at faulty
      cases read <;> cases faulty
    · rename_i fault missed
      cases faulty
      exact missing_of_inPixels missed

/-- Of a scale nothing is consulted but what the lengths of the expression are measured in: scales
that agree there answer alike, faults included, so that an expression in pixels and physical units
has one answer everywhere, and a container on its side has the same answer along its other axis. To
size one more unit changes nothing but for an expression that misses it. -/
theorem pixels_of_agree (cs : List Char) :
    (∀ (scale scale' : Scale) (axis axis' : Axis),
      scale.Agree scale' axis axis' (Piece.suffixes cs) →
      pixels scale axis cs = pixels scale' axis' cs) ∧
    ((∀ suffix ∈ Piece.suffixes cs, suffix = .pixel ∨ ∃ unit, suffix = .physical unit) →
      ∀ (scale scale' : Scale) (axis axis' : Axis), pixels scale axis cs = pixels scale' axis' cs) ∧
    (∀ (scale : Scale) (axis : Axis),
      pixels scale.transposed axis.other cs = pixels scale axis cs) ∧
    ∀ (scale : Scale) (unit : RelativeUnit), scale.pixels? unit = none →
      ∀ (x : Float) (axis : Axis),
      pixels scale axis cs = .error (.unresolved unit) ∨
        pixels (scale.set unit x) axis cs = pixels scale axis cs := by
  refine ⟨fun _ _ _ _ => pixels_congr_of_agree,
    fun absolute _ _ _ _ => pixels_congr_of_agree ⟨fun unit member => ?_, fun member => ?_⟩,
    fun scale axis => pixels_congr_of_agree ⟨fun _ _ => rfl, fun _ => ?_⟩,
    fun _ _ missing x axis => pixels_set missing x axis cs⟩
  · rcases absolute _ member with pixel | ⟨_, physical⟩ <;> contradiction
  · rcases absolute _ member with pixel | ⟨_, physical⟩ <;> contradiction
  · cases axis <;> rfl

theorem pixels_of_agree_sum :
    let scale := (Scale.ofPercents 2 3).set .em 16
    let scale' := ((Scale.ofPercents 7 2).set .em 16).set .vw 5
    let sum := "calc(50% + 2em)".toList
    let difference := "calc(1in - 3px)".toList
    pixels scale .horizontal sum = pixels scale' .vertical sum ∧
      (∀ axis axis', pixels scale axis difference = pixels scale' axis' difference) ∧
      (pixels scale .vertical sum = .error (.unresolved .vw) ∨
        pixels (scale.set .vw 5) .vertical sum = pixels scale .vertical sum) := by
  intro scale scale' sum difference
  have named : Piece.suffixes sum = [.percent, .relative .em] := by decide +kernel
  have named' : Piece.suffixes difference = [.physical .inch, .pixel] := by decide +kernel
  have agree : scale.Agree scale' .horizontal .vertical (Piece.suffixes sum) := by
    rw [named]
    refine ⟨fun unit member => ?_, fun _ => ?_⟩
    · simp only [List.mem_cons, reduceCtorEq, false_or, List.not_mem_nil, or_false,
        Suffix.relative.injEq] at member
      rw [member, Scale.set_pixels?_self, Scale.set_pixels?_of_ne _ (by decide),
        Scale.set_pixels?_self]
    · show (2 : Float) = 2
      rfl
  have absolute : ∀ suffix ∈ Piece.suffixes difference, suffix = .pixel ∨
      ∃ unit, suffix = .physical unit := by
    rw [named']
    simp
  obtain ⟨alike, _, _, missing⟩ := pixels_of_agree sum
  exact ⟨alike _ _ _ _ agree, fun axis axis' =>
    (pixels_of_agree difference).2.1 absolute _ _ axis axis', missing scale .vw rfl 5 .vertical⟩

end Calc

end CalcLength
