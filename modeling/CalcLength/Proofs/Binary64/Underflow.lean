import CalcLength.Proofs.Binary64.Product

namespace CalcLength.Binary64

open Float.Model (UnpackedFloat Format totalExponent)
open Float.Model.UnpackedFloat

/-- Whether a number, its sign apart, has its first binary digit at this place before
the point or further in front. -/
def Reaches (place : Int) : UnpackedFloat → Prop
  | .notANumber => False
  | .infinity _ => True
  | .zero _ => False
  | .finite _ m e _ => place ≤ totalExponent m e

theorem log2_mono {m n : Nat} (some : m ≠ 0) (le : m ≤ n) : m.log2 ≤ n.log2 :=
  (Nat.le_log2 (by omega)).mpr (Nat.le_trans (Nat.log2_self_le some) le)

theorem log2_div_two_pow {m k : Nat} (some : m ≠ 0) (digits : k ≤ m.log2) :
    m / 2 ^ k ≠ 0 ∧ (m / 2 ^ k).log2 = m.log2 - k := by
  have positive := Nat.two_pow_pos k
  have least : 2 ^ (m.log2 - k) ≤ m / 2 ^ k := by
    rw [Nat.le_div_iff_mul_le positive, ← Nat.pow_add, Nat.sub_add_cancel digits]
    exact Nat.log2_self_le some
  have most : m / 2 ^ k < 2 ^ (m.log2 - k + 1) := by
    rw [Nat.div_lt_iff_lt_mul positive, ← Nat.pow_add, Nat.add_right_comm,
      Nat.sub_add_cancel digits]
    exact Nat.lt_log2_self
  have quotient : m / 2 ^ k ≠ 0 := Nat.ne_of_gt (Nat.lt_of_lt_of_le (Nat.two_pow_pos _) least)
  exact ⟨quotient, (Nat.log2_eq_iff quotient).mpr ⟨least, most⟩⟩

theorem le_roundedMantissa (m : ExtendedMantissa) : m.mantissa ≤ m.roundedMantissa := by
  unfold ExtendedMantissa.roundedMantissa Accuracy.roundToNearestEven
  split <;> omega

/-- From the smallest positive number on, a shift to where the format ends
takes no digit from the front. -/
theorem shiftToTargetExponent_canonical {m : Nat} {e : Int} (accuracy : Accuracy) (some : m ≠ 0)
    (room : e ≤ Format.binary64.targetExponent (totalExponent m e))
    (above : -1073 ≤ totalExponent m e) :
    ∃ shifted, shiftToTargetExponent .binary64 m e accuracy = shifted ∧ 0 < shifted.1.mantissa ∧
      Canonical shifted.1.mantissa shifted.2 ∧
        totalExponent shifted.1.mantissa shifted.2 = totalExponent m e := by
  have target : Format.binary64.targetExponent (totalExponent m e) =
      max (m.log2 + 1 + e - 53) (-1074) := rfl
  have place : totalExponent m e = m.log2 + 1 + e := rfl
  rw [target] at room
  rw [place] at above
  refine ⟨_, rfl, ?_⟩
  have mantissa : (shiftToTargetExponent .binary64 m e accuracy).1.mantissa =
      m / 2 ^ (max (m.log2 + 1 + e - 53) (-1074) - e).toNat :=
    (mantissa_shiftRight _ _).trans (congrArg (· / _) (mantissa_ofMantissaAndAccuracy m accuracy))
  have exponent : (shiftToTargetExponent .binary64 m e accuracy).2 =
      e + (max (m.log2 + 1 + e - 53) (-1074) - e).toNat := rfl
  obtain ⟨quotient, digits⟩ :=
    @log2_div_two_pow m (max (m.log2 + 1 + e - 53) (-1074) - e).toNat some (by omega)
  rw [mantissa, exponent, canonical_iff, totalExponent, totalExponent, digits]
  exact ⟨Nat.pos_of_ne_zero quotient, by omega, by omega⟩

/-- From the smallest positive number on, rounding gives no less a number
of digits before the point. -/
theorem exists_roundWithAccuracy (s : Sign) {m : Nat} {e : Int} (accuracy : Accuracy) (some : m ≠ 0)
    (room : e ≤ Format.binary64.targetExponent (totalExponent m e))
    (above : -1073 ≤ totalExponent m e) :
    ∃ m' e' some', roundWithAccuracy .binary64 s m e accuracy = .finite s m' e' some' ∧
      Canonical m' e' ∧
      totalExponent m e ≤ totalExponent m' e' := by
  obtain ⟨first, once, positive, canonical, same⟩ :=
    shiftToTargetExponent_canonical accuracy some room above
  -- Rounding up may add a digit, so the second shift is to where the rounded mantissa ends.
  have rounded := le_roundedMantissa first.1
  have grows : totalExponent m e ≤ totalExponent first.1.roundedMantissa first.2 := by
    have digits := log2_mono (Nat.ne_of_gt positive) rounded
    rw [← same, totalExponent, totalExponent]
    omega
  have room' :
      first.2 ≤ Format.binary64.targetExponent (totalExponent first.1.roundedMantissa first.2) := by
    have target (place : Int) :
        Format.binary64.targetExponent place = max (place - 53) (-1074) := rfl
    unfold Canonical at canonical
    rw [target] at canonical ⊢
    omega
  obtain ⟨second, again, positive', canonical', same'⟩ :=
    shiftToTargetExponent_canonical .exact (by omega) room' (Int.le_trans above grows)
  exact ⟨_, _, positive', roundWithAccuracy_of_shifted s once again positive',
    canonical', by rwa [same']⟩

/-- A canonical number is unpacked as itself, or as infinity if it is too large. -/
theorem reaches_pack (s : Sign) {m : Nat} {e place : Int} (some : 0 < m) (canonical : Canonical m e)
    (reaches : place ≤ totalExponent m e) :
    Reaches place
      (UnpackedFloat.unpack .binary64 (UnpackedFloat.pack .binary64 (.finite s m e some))) := by
  have ends := canonical_iff.mp canonical
  rw [pack_finite]
  split
  · show Reaches place (UnpackedFloat.unpack .binary64 (packComponents .binary64 s _ _))
    rw [unpack_packComponents]
    exact trivial
  · rename_i low
    have digits : m < 2 ^ 53 := (Nat.log2_lt (Nat.ne_of_gt some)).mp (by omega)
    split
    · rename_i normal
      have least : 2 ^ 52 ≤ m := (Nat.le_log2 (Nat.ne_of_gt some)).mp (by omega)
      have fraction : m % 2 ^ 52 = m - 2 ^ 52 := by omega
      have whole : 2 ^ 52 + (m - 2 ^ 52) = m := by omega
      rw [unpack_packComponents, BitVec.toNat_ofNat, BitVec.toNat_ofNat, fraction,
        Nat.mod_eq_of_lt (by omega), ofFields_normal _ (by omega) (by omega)]
      show place ≤ totalExponent (2 ^ 52 + (m - 2 ^ 52)) _
      rw [whole]
      rw [totalExponent] at reaches ⊢
      omega
    · have small : m < 2 ^ 52 := (Nat.log2_lt (Nat.ne_of_gt some)).mp (by omega)
      have bottom : e = -1074 := by omega
      have fraction : (BitVec.ofNat 52 m).toNat = m :=
        (BitVec.toNat_ofNat ..).trans (Nat.mod_eq_of_lt small)
      have field : (0#11).toNat = 0 := rfl
      rw [unpack_packComponents, fraction, field, ofFields_subnormal _ (Nat.ne_of_gt some),
        ← bottom]
      exact reaches

/-- A quotient is computed with enough digits for its first one to stand where those of the two
numbers say, or further in front. -/
theorem divCore_reaches {m₁ m₂ : Nat} {e₁ e₂ : Int} (some₁ : 0 < m₁) (some₂ : 0 < m₂)
    (above : -1073 ≤ totalExponent m₁ e₁ - totalExponent m₂ e₂) :
    ∃ m e accuracy, divCore .binary64 m₁ e₁ m₂ e₂ = (m, e, accuracy) ∧ m ≠ 0 ∧
      totalExponent m₁ e₁ - totalExponent m₂ e₂ ≤ totalExponent m e ∧
      e ≤ Format.binary64.targetExponent (totalExponent m e) := by
  have target (place : Int) : Format.binary64.targetExponent place = max (place - 53) (-1074) := rfl
  unfold divCore
  simp only [target, totalExponent] at above ⊢
  generalize last : min (e₁ - e₂) (max (m₁.log2 + 1 + e₁ - (m₂.log2 + 1 + e₂) - 53) (-1074)) = e
  generalize more : (e₁ - e₂ - e).toNat = k
  -- The numerator gets at least one digit more than the denominator has, or the quotient could be
  -- nothing.
  have digits : m₂.log2 + 1 ≤ m₁.log2 + k := by omega
  have least : 2 ^ (m₁.log2 + k - (m₂.log2 + 1)) ≤ m₁ <<< k / m₂ := by
    rw [Nat.le_div_iff_mul_le some₂, Nat.shiftLeft_eq]
    calc 2 ^ (m₁.log2 + k - (m₂.log2 + 1)) * m₂ ≤
            2 ^ (m₁.log2 + k - (m₂.log2 + 1)) * 2 ^ (m₂.log2 + 1) :=
          Nat.mul_le_mul_left _ (Nat.le_of_lt Nat.lt_log2_self)
      _ = 2 ^ m₁.log2 * 2 ^ k := by rw [← Nat.pow_add, ← Nat.pow_add, Nat.sub_add_cancel digits]
      _ ≤ m₁ * 2 ^ k := Nat.mul_le_mul_right _ (Nat.log2_self_le (Nat.ne_of_gt some₁))
  have some : m₁ <<< k / m₂ ≠ 0 := Nat.ne_of_gt (Nat.lt_of_lt_of_le (Nat.two_pow_pos _) least)
  have place := (Nat.le_log2 some).mpr least
  exact ⟨_, _, _, rfl, some, by omega, by omega⟩

theorem reaches_div {s₁ s₂ : Sign} {m₁ m₂ : Nat} {e₁ e₂ place : Int} (some₁ : 0 < m₁)
    (some₂ : 0 < m₂) (above : -1073 ≤ place)
    (reaches : place ≤ totalExponent m₁ e₁ - totalExponent m₂ e₂) :
    Reaches place (UnpackedFloat.unpack .binary64 (UnpackedFloat.pack .binary64
      (UnpackedFloat.div .binary64 (.finite s₁ m₁ e₁ some₁) (.finite s₂ m₂ e₂ some₂)))) := by
  obtain ⟨m, e, accuracy, divided, some, begins, room⟩ :=
    divCore_reaches some₁ some₂ (Int.le_trans above reaches)
  have above := Int.le_trans above (Int.le_trans reaches begins)
  obtain ⟨m', e', some', rounded, canonical, begins'⟩ :=
    exists_roundWithAccuracy (s₁ / s₂) accuracy some room above
  have quotient : UnpackedFloat.div .binary64 (.finite s₁ m₁ e₁ some₁) (.finite s₂ m₂ e₂ some₂) =
      roundWithAccuracy .binary64 (s₁ / s₂) (divCore .binary64 m₁ e₁ m₂ e₂).1
        (divCore .binary64 m₁ e₁ m₂ e₂).2.1
        (divCore .binary64 m₁ e₁ m₂ e₂).2.2 := rfl
  rw [quotient, divided, rounded]
  exact reaches_pack _ some' canonical (by omega)

theorem beq_zero_eq (x : Float) :
    (x == 0) = (x.toModel.unpack.compare (.zero .positive) == some .eq) := rfl

theorem not_beq_zero_of_reaches {x : Float} {place : Int}
    (reaches : Reaches place x.toModel.unpack) : (x == 0) = false := by
  rw [beq_zero_eq]
  cases kind : x.toModel.unpack with
  | notANumber | zero =>
    rw [kind] at reaches
    cases reaches
  | infinity s => cases s <;> rfl
  | finite s m e positive => cases s <;> rfl

/-- No number is as large as the 1024th power of two. -/
theorem totalExponent_le {y : Float} {s : Sign} {m : Nat} {e : Int} {some : 0 < m}
    (unpacked : y.toModel.unpack = .finite s m e some) : totalExponent m e ≤ 1024 := by
  have finite : y.isFinite = true := (congrArg UnpackedFloat.isFinite unpacked).trans rfl
  have low := (isFinite_iff y).mp finite
  have small := fractionField_lt y
  rw [unpack_toModel] at unpacked
  by_cases bottom : exponentField y = 0
  · by_cases none : fractionField y = 0
    · rw [bottom, none, ofFields_zero] at unpacked
      cases unpacked
    · rw [bottom, ofFields_subnormal _ none] at unpacked
      cases unpacked
      have digits := (Nat.log2_lt none).mpr small
      rw [totalExponent]
      omega
  · rw [ofFields_normal _ (by omega) bottom] at unpacked
    cases unpacked
    rw [totalExponent, log2_normal small]
    omega

/-- No finite number is so large that it takes more than 1024 digits from a quotient. -/
theorem Reaches.div {x y : Float} {place : Int} (reaches : Reaches place x.toModel.unpack)
    (finite : x.isFinite = true) (finite' : y.isFinite = true) (positive : 0 < y)
    (above : -49 ≤ place) : Reaches (place - 1024) (x / y).toModel.unpack := by
  obtain ⟨m, e, some, unpacked⟩ := exists_unpack_of_positive finite' positive
  have bound := totalExponent_le unpacked
  have finite : x.toModel.unpack.isFinite = true := finite
  rw [unpack_div, unpacked]
  cases kind : x.toModel.unpack with
  | notANumber | zero =>
    rw [kind] at reaches
    cases reaches
  | infinity =>
    rw [kind] at finite
    cases finite
  | finite s m' e' some' =>
    rw [kind] at reaches
    have reaches : place ≤ totalExponent m' e' := reaches
    exact reaches_div _ _ (by omega) (by omega)

theorem div_beq_zero {x y : Float} {s : Sign}
    (zero : UnpackedFloat.div .binary64 x.toModel.unpack y.toModel.unpack = .zero s) :
    (x / y == 0) = true := by
  rw [beq_zero_eq, unpack_div, zero]
  cases s <;> rfl

theorem zero_div_beq_zero {y : Float} (positive : 0 < y) : (0 / y == 0) = true := by
  have zero : (0 : Float).toModel.unpack = .zero .positive := rfl
  obtain infinite | ⟨m, e, some, unpacked⟩ := unpack_of_positive positive
  · exact div_beq_zero (by rw [zero, infinite]; rfl)
  · exact div_beq_zero (by rw [zero, unpacked]; rfl)

theorem div_beq_zero_of_isInf {x y : Float} (finite : x.isFinite = true)
    (infinite : y.isInf = true) : (x / y == 0) = true := by
  have finite : x.toModel.unpack.isFinite = true := finite
  have infinite : y.toModel.unpack.isInf = true := infinite
  cases kind : y.toModel.unpack with
  | notANumber | zero | finite =>
    rw [kind] at infinite
    cases infinite
  | infinity s =>
    cases kind' : x.toModel.unpack with
    | notANumber | infinity =>
      rw [kind'] at finite
      cases finite
    | zero s' => exact div_beq_zero (by rw [kind', kind]; rfl)
    | finite s' => exact div_beq_zero (by rw [kind', kind]; rfl)

theorem isFinite_of_positive {y : Float} (positive : 0 < y) (finite : y.isInf = false) :
    y.isFinite = true := by
  have finite : y.toModel.unpack.isInf = false := finite
  show y.toModel.unpack.isFinite = true
  obtain infinite | ⟨m, e, some, unpacked⟩ := unpack_of_positive positive
  · rw [infinite] at finite
    cases finite
  · rw [unpacked]
    rfl

theorem le_roundHalfEven (num den : Nat) : num / den ≤ roundHalfEven num den := by
  unfold roundHalfEven
  dsimp only
  split
  · exact Nat.le_refl _
  · split
    · exact Nat.le_succ _
    · split
      · exact Nat.le_refl _
      · exact Nat.le_succ _

theorem le_nearestBits {n : Nat} (positive : n ≠ 0) : 1023 * 2 ^ 52 ≤ nearestBits n 1 := by
  have log2 : (n * unitsInOne).log2 = n.log2 + 1074 := by
    rw [unitsInOne_eq, log2_mul_two_pow positive]
  have coarser : n.log2 + 1074 - 52 = n.log2 + 1022 := by omega
  have least : 2 ^ 52 ≤ n * unitsInOne / 2 ^ (n.log2 + 1022) := by
    have digits : 52 + (n.log2 + 1022) = n.log2 + 1074 := by omega
    rw [Nat.le_div_iff_mul_le (Nat.two_pow_pos _)]
    calc 2 ^ 52 * 2 ^ (n.log2 + 1022) = 2 ^ n.log2 * unitsInOne := by
            rw [unitsInOne_eq, ← Nat.pow_add, ← Nat.pow_add, digits]
      _ ≤ n * unitsInOne := Nat.mul_le_mul_right _ (Nat.log2_self_le positive)
  have rounded := le_roundHalfEven (n * unitsInOne) (2 ^ (n.log2 + 1022))
  rw [nearestBits_eq, Nat.div_one, Nat.one_mul, log2, coarser, infinityBits]
  omega

theorem le_exponentField_nearest {n : Nat} (positive : n ≠ 0) :
    1023 ≤ exponentField (nearest n 1) := by
  have bits : (nearest n 1).toBits.toNat = nearestBits n 1 :=
    toNat_toBits_ofBits (nearestBits_le n 1)
  have least := le_nearestBits positive
  have most := nearestBits_le n 1
  rw [infinityBits] at most
  rw [exponentField, bits, Nat.shiftRight_eq_div_pow]
  omega

theorem le_exponentField_ofInt {n : Int} (some : n ≠ 0) (above : -2 ^ 31 ≤ n) :
    1023 ≤ exponentField (ofInt n) := by
  cases n with
  | ofNat n => exact le_exponentField_nearest fun zero => some (congrArg Int.ofNat zero)
  | negSucc n =>
    have least := le_exponentField_nearest (by omega : n + 1 ≠ 0)
    have low := exponentField_nearest (by omega : n + 1 < 2 ^ 32)
    have fraction := fractionField_lt (nearest (n + 1) 1)
    have bits :=
      toNat_toBits_neg ((isFinite_iff _).mpr (by omega : exponentField (nearest (n + 1) 1) < 2047))
    rw [ofInt, exponentField, bits, Nat.shiftRight_eq_div_pow]
    omega

end CalcLength.Binary64

namespace CalcLength.Sixtieths

open Float.Model (UnpackedFloat totalExponent)
open Float.Model.UnpackedFloat Binary64

variable {size : Sixtieths} {y : Float}

/-- What is not nothing is more than a hundredth of a pixel, or less than minus that. -/
theorem reaches_toPixels (some : size.isZero = false) :
    Reaches (-5) size.toPixels.toModel.unpack := by
  have some : size.count.toInt ≠ 0 := by
    intro zero
    have none : size.count = 0 := Int32.toInt_inj.mp zero
    rw [isZero, none] at some
    cases some
  have least := le_exponentField_ofInt some size.count.le_toInt
  have most := exponentField_ofInt size.count.le_toInt size.count.toInt_lt
  have small := fractionField_lt (ofInt size.count.toInt)
  have sixty :
      (60 : Float).toModel.unpack = .finite .positive (60 * 2 ^ 47) (-47) (by decide) := rfl
  have place : totalExponent (60 * 2 ^ 47) (-47) = 6 := by decide
  rw [toPixels, unpack_div, sixty, unpack_toModel, ofFields_normal _ (by omega) (by omega)]
  refine reaches_div _ _ (by decide) ?_
  rw [place, totalExponent, log2_normal small]
  omega

theorem toPixels_of_isZero (none : size.isZero = true) : size.toPixels = 0 := by
  have zero : size.count = 0 := eq_of_beq none
  rw [toPixels, zero]
  decide +kernel

/-- A size divided by a positive number vanishes if it is nothing or the number is infinite. No
finite number is large enough for that. -/
theorem toPixels_div_beq_zero (size : Sixtieths) (positive : 0 < y) :
    (size.toPixels / y == 0) = (size.isZero || y.isInf) := by
  cases none : size.isZero with
  | true =>
    rw [toPixels_of_isZero none]
    exact zero_div_beq_zero positive
  | false =>
    cases infinite : y.isInf with
    | true => exact div_beq_zero_of_isInf size.isFinite_toPixels infinite
    | false =>
      have finite := isFinite_of_positive positive infinite
      exact not_beq_zero_of_reaches
        ((reaches_toPixels none).div size.isFinite_toPixels finite positive (by decide))

end CalcLength.Sixtieths
