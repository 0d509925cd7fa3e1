import CalcLength.Proofs.Binary64.Quotient
import CalcLength.Decimal.Basic

namespace CalcLength.Binary64

open Float.Model (UnpackedFloat Format totalExponent)
open Float.Model.UnpackedFloat

/-- Whether it is a number, be it zero or infinite, of the given sign. -/
def HasSign (s : Sign) : UnpackedFloat → Prop
  | .notANumber => False
  | .infinity sign => sign = s
  | .zero sign => sign = s
  | .finite sign _ _ _ => sign = s

theorem hasSign_ofFields (s : Sign) {exponent fraction : Nat}
    (number : exponent = 2047 → fraction = 0) : HasSign s (ofFields s exponent fraction) := by
  by_cases top : exponent = 2047
  · rw [top, number top, ofFields_infinite]
    rfl
  · by_cases bottom : exponent = 0
    · by_cases none : fraction = 0
      · rw [bottom, none, ofFields_zero]
        rfl
      · rw [bottom, ofFields_subnormal s none]
        rfl
    · rw [ofFields_normal s top bottom]
      rfl

/-- The sign bit of a positive number is clear. -/
theorem toNat_pack_lt {x : UnpackedFloat} (positive : HasSign .positive x) :
    (UnpackedFloat.pack .binary64 x).toNat < 2 ^ 63 := by
  have packed (e : BitVec 11) (m : BitVec 52) :
      (packComponents .binary64 .positive e m).toNat < 2 ^ 63 := by
    have bits := toNat_packComponents .positive e m
    have clear : Sign.positive.toBitVec.toNat = 0 := rfl
    have bound := e.isLt
    have bound' := m.isLt
    omega
  cases x with
  | notANumber => cases positive
  | infinity s =>
    cases positive
    exact packed _ _
  | zero s =>
    cases positive
    exact packed _ _
  | finite s m e some =>
    cases positive
    rw [pack_finite]
    split
    · exact packed _ _
    · split
      · exact packed _ _
      · exact packed _ _

/-- Rounding keeps the sign, also of what is rounded to zero. -/
theorem hasSign_roundWithAccuracy (s : Sign) (m : Nat) (e : Int) (accuracy : Accuracy) :
    HasSign s (roundWithAccuracy .binary64 s m e accuracy) := by
  obtain rounded | ⟨_, _, _, rounded⟩ := roundWithAccuracy_cases s m e accuracy
  · rw [rounded]
    rfl
  · rw [rounded]
    rfl

theorem exists_unpack_of_positive {y : Float} (finite : y.isFinite = true) (positive : 0 < y) :
    ∃ m e some, y.toModel.unpack = .finite .positive m e some := by
  obtain infinite | unpacked := unpack_of_positive positive
  · have finite : y.toModel.unpack.isFinite = true := finite
    rw [infinite] at finite
    cases finite
  · exact unpacked

/-- The product of what is not negative and a positive finite number is not
negative, even if it is infinite. -/
theorem not_isNegative_mul {x y : Float} (sign : HasSign .positive x.toModel.unpack)
    (finite : y.isFinite = true) (positive : 0 < y) : isNegative (x * y) = false := by
  obtain ⟨m, e, some, unpacked⟩ := exists_unpack_of_positive finite positive
  have product :
      HasSign .positive (UnpackedFloat.mul .binary64 x.toModel.unpack y.toModel.unpack) := by
    rw [unpacked]
    cases kind : x.toModel.unpack with
    | notANumber =>
      rw [kind] at sign
      cases sign
    | infinity s | zero s =>
      rw [kind] at sign
      cases sign
      rfl
    | finite s m' e' some' =>
      rw [kind] at sign
      cases sign
      exact hasSign_roundWithAccuracy ..
  have bits : (x * y).toBits.toNat < 2 ^ 63 := toNat_pack_lt product
  rw [isNegative, decide_eq_false_iff_not]
  omega

theorem HasSign.unique {s s' : Sign} {x : UnpackedFloat} (sign : HasSign s x)
    (sign' : HasSign s' x) : s = s' := by
  cases x with
  | notANumber => cases sign
  | infinity => exact sign.symm.trans sign'
  | zero => exact sign.symm.trans sign'
  | finite => exact sign.symm.trans sign'

theorem not_isNegative_of_positive {x : Float} (finite : x.isFinite = true) (positive : 0 < x) :
    isNegative x = false := by
  obtain ⟨m, e, some, unpacked⟩ := exists_unpack_of_positive finite positive
  have sign : HasSign .positive x.toModel.unpack := by
    rw [unpacked]
    rfl
  have number : exponentField x = 2047 → fractionField x = 0 := by
    have low := (isFinite_iff x).mp finite
    omega
  have sign' := hasSign_ofFields (signOf (x.toBits.toNat / 2 ^ 63)) number
  rw [← unpack_toModel] at sign'
  have clear := sign.unique sign'
  have bound := x.toBits.toNat_lt
  rw [isNegative, decide_eq_false_iff_not]
  intro set
  have one : x.toBits.toNat / 2 ^ 63 = 1 := by omega
  rw [one] at clear
  cases clear

theorem hasSign_ofBits {bits : Nat} (number : bits ≤ infinityBits) :
    HasSign .positive (Float.ofBits (UInt64.ofNat bits)).toModel.unpack := by
  have stored := toNat_toBits_ofBits number
  rw [infinityBits] at number
  have sign : signOf ((Float.ofBits (UInt64.ofNat bits)).toBits.toNat / 2 ^ 63) = .positive := by
    rw [stored, signOf, if_pos (by omega)]
  rw [unpack_toModel, sign]
  refine hasSign_ofFields _ fun top => ?_
  rw [exponentField, stored, Nat.shiftRight_eq_div_pow] at top
  rw [fractionField, stored]
  omega

/-- Whether a mantissa has all the digits that its exponent leaves room for. -/
def Canonical (m : Nat) (e : Int) : Prop :=
  Format.binary64.targetExponent (totalExponent m e) = e

theorem canonical_iff {m : Nat} {e : Int} :
    Canonical m e ↔ max (m.log2 + 1 + e - 53) (-1074) = e := Iff.rfl

theorem canonical_subnormal {fraction : Nat} (some : fraction ≠ 0) (small : fraction < 2 ^ 52) :
    Canonical fraction (-1074) := by
  have digits := (Nat.log2_lt some).mpr small
  rw [canonical_iff]
  omega

theorem canonical_normal {exponent fraction : Nat} (positive : exponent ≠ 0)
    (small : fraction < 2 ^ 52) : Canonical (2 ^ 52 + fraction) (exponent - 1075) := by
  rw [canonical_iff, log2_normal small]
  omega

theorem log2_mul_two_pow {m : Nat} (some : m ≠ 0) (k : Nat) : (m * 2 ^ k).log2 = m.log2 + k := by
  have positive := Nat.two_pow_pos k
  rw [Nat.log2_eq_iff (Nat.mul_ne_zero some (Nat.ne_of_gt positive)), Nat.add_right_comm,
    Nat.pow_add, Nat.pow_add]
  exact ⟨Nat.mul_le_mul_right _ (Nat.log2_self_le some),
    Nat.mul_lt_mul_of_pos_right Nat.lt_log2_self positive⟩

theorem shiftRight_exact (m k : Nat) :
    (⟨m * 2 ^ k, false, false⟩ : ExtendedMantissa) >>> k = ⟨m, false, false⟩ := by
  induction k generalizing m with
  | zero =>
    rw [Nat.pow_zero, Nat.mul_one]
    rfl
  | succ k ih =>
    have once : (⟨m * 2 ^ (k + 1), false, false⟩ : ExtendedMantissa) >>> (k + 1) =
        ((⟨(m * 2) * 2 ^ k, false, false⟩ : ExtendedMantissa) >>> k).shiftRightOne := by
      rw [Nat.pow_succ', ← Nat.mul_assoc]
      rfl
    rw [once, ih (m * 2), ExtendedMantissa.shiftRightOne, Nat.mul_div_cancel _ (by decide),
      Nat.mul_mod_left]
    rfl

/-- Rounding shifts twice, the second time for the digit that rounding up may add. -/
theorem roundWithAccuracy_of_shifted (s : Sign) {m : Nat} {e : Int} {accuracy : Accuracy}
    {first second : ExtendedMantissa × Int}
    (once : shiftToTargetExponent .binary64 m e accuracy = first)
    (again : shiftToTargetExponent .binary64 first.1.roundedMantissa first.2 .exact = second)
    (some : 0 < second.1.mantissa) :
    roundWithAccuracy .binary64 s m e accuracy = .finite s second.1.mantissa second.2 some := by
  subst once again
  exact dif_neg (Nat.ne_of_gt some)

section Canonical

variable {m : Nat} {e : Int} (some : 0 < m) (canonical : Canonical m e)
include some canonical

/-- A canonical number is found again with zeros behind its mantissa. -/
theorem shiftToTargetExponent_exact (k : Nat) :
    shiftToTargetExponent .binary64 (m * 2 ^ k) (e - k) .exact = (⟨m, false, false⟩, e) := by
  have same : totalExponent (m * 2 ^ k) (e - k) = totalExponent m e := by
    rw [totalExponent, totalExponent, log2_mul_two_pow (Nat.ne_of_gt some)]
    omega
  have target : Format.binary64.targetExponent (totalExponent (m * 2 ^ k) (e - k)) = e := by
    rw [same]
    exact canonical
  have amount : (e - (e - k)).toNat = k := by omega
  simp only [shiftToTargetExponent, target, shiftToExponent, amount,
    ExtendedMantissa.ofMantissaAndAccuracy, shiftRight_exact, Int.sub_add_cancel]

theorem roundWithAccuracy_exact (s : Sign) (k : Nat) :
    roundWithAccuracy .binary64 s (m * 2 ^ k) (e - k) .exact = .finite s m e some := by
  have again : shiftToTargetExponent .binary64 m e .exact = (⟨m, false, false⟩, e) := by
    have none := shiftToTargetExponent_exact some canonical 0
    rwa [Nat.pow_zero, Nat.mul_one, Int.ofNat_zero, Int.sub_zero] at none
  exact roundWithAccuracy_of_shifted s (shiftToTargetExponent_exact some canonical k) again some

end Canonical

theorem sign_mul_positive (s : Sign) : s * .positive = s := by
  cases s <;> rfl

/-- One is neutral, for the two zeros as well. -/
theorem mul_one_of_isFinite {x : Float} (finite : x.isFinite = true) : x * 1 = x := by
  have low := (isFinite_iff x).mp finite
  have small := fractionField_lt x
  have one : (1 : Float).toModel.unpack = .finite .positive (2 ^ 52) (-52) (by decide) := rfl
  have product : UnpackedFloat.mul .binary64 x.toModel.unpack (1 : Float).toModel.unpack =
      x.toModel.unpack := by
    rw [one, unpack_toModel]
    by_cases bottom : exponentField x = 0
    · by_cases none : fractionField x = 0
      · rw [bottom, none, ofFields_zero]
        exact congrArg UnpackedFloat.zero (sign_mul_positive _)
      · rw [bottom, ofFields_subnormal _ none]
        exact (roundWithAccuracy_exact (Nat.pos_of_ne_zero none)
            (canonical_subnormal none small) _ 52).trans
          (finite_congr (sign_mul_positive _) rfl rfl)
    · rw [ofFields_normal _ (by omega) bottom]
      exact (roundWithAccuracy_exact (by omega) (canonical_normal bottom small) _ 52).trans
        (finite_congr (sign_mul_positive _) rfl rfl)
  have bound := x.toBits.toNat_lt
  apply eq_of_toNat_toBits
  calc (x * 1).toBits.toNat
      = (UnpackedFloat.pack .binary64
        (UnpackedFloat.mul .binary64 x.toModel.unpack (1 : Float).toModel.unpack)).toNat := rfl
    _ = x.toBits.toNat / 2 ^ 63 * 2 ^ 63 + exponentField x * 2 ^ 52 + fractionField x := by
      rw [product, unpack_toModel, toNat_pack_ofFields _ (exponentField_lt x) small (by omega),
        toNat_signOf (by omega)]
    _ = x.toBits.toNat := (toNat_toBits x).symm

end CalcLength.Binary64

namespace CalcLength.Decimal

open Binary64

/-- A decimal is not negative, even where it is beyond the largest double. -/
theorem hasSign_toFloat (d : Decimal) : HasSign .positive d.toFloat.toModel.unpack := by
  have zero : HasSign .positive (Float.ofBits 0).toModel.unpack := hasSign_ofBits (Nat.zero_le _)
  unfold toFloat
  split
  · exact zero
  · split
    · exact hasSign_ofBits (Nat.le_refl _)
    · split
      · exact zero
      · exact hasSign_ofBits (nearestBits_le _ _)

end CalcLength.Decimal
