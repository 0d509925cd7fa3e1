import Mathlib.Algebra.Group.Int.Defs
import CalcLength.Proofs.Binary64.Exact
import CalcLength.Sixtieths

namespace CalcLength.Binary64

open Float.Model (UnpackedFloat Format totalExponent)
open Float.Model.UnpackedFloat

theorem isNaN_ofFields (s : Sign) {exponent fraction : Nat}
    (number : exponent = 2047 → fraction = 0) : (ofFields s exponent fraction).isNaN = false := by
  by_cases top : exponent = 2047
  · rw [top, number top, ofFields_infinite]
    rfl
  · have finite : (ofFields s exponent fraction).isFinite = true := (isFinite_ofFields s).mpr top
    cases kind : ofFields s exponent fraction with
    | notANumber =>
      rw [kind] at finite
      cases finite
    | infinity => rfl
    | zero => rfl
    | finite => rfl

theorem unpack_packComponents (s : Sign) (e : BitVec 11) (m : BitVec 52) :
    UnpackedFloat.unpack .binary64 (packComponents .binary64 s e m) =
      ofFields (signOf s.toBitVec.toNat) e.toNat m.toNat := by
  have bits := toNat_packComponents s e m
  have bound := e.isLt
  have bound' := m.isLt
  have sign : (packComponents .binary64 s e m).toNat / 2 ^ 63 = s.toBitVec.toNat := by omega
  have exponent : (packComponents .binary64 s e m).toNat / 2 ^ 52 % 2 ^ 11 = e.toNat := by omega
  have fraction : (packComponents .binary64 s e m).toNat % 2 ^ 52 = m.toNat := by omega
  rw [← sign, ← exponent, ← fraction]
  exact unpack_eq_ofFields _

/-- Only what is no number is packed as such. -/
theorem isNaN_pack {x : UnpackedFloat} (number : x.isNaN = false) :
    (UnpackedFloat.unpack .binary64 (UnpackedFloat.pack .binary64 x)).isNaN = false := by
  have packed (s : Sign) {e : BitVec 11} {m : BitVec 52} (infinite : e.toNat = 2047 → m.toNat = 0) :
      (UnpackedFloat.unpack .binary64 (packComponents .binary64 s e m)).isNaN = false := by
    rw [unpack_packComponents]
    exact isNaN_ofFields _ infinite
  cases x with
  | notANumber => cases number
  | infinity s => exact packed s fun _ => rfl
  | zero s => exact packed s fun _ => rfl
  | finite s m e positive =>
    rw [pack_finite]
    split
    · exact packed s fun _ => rfl
    · rename_i low
      split
      · refine packed s fun top => ?_
        rw [BitVec.toNat_ofNat] at top
        omega
      · exact packed s nofun

theorem isFinite_pack_zero (s : Sign) :
    (UnpackedFloat.unpack .binary64 (UnpackedFloat.pack .binary64 (.zero s))).isFinite = true := by
  cases s <;> rfl

/-- Below the topmost exponent, what is finite is packed as finite. -/
theorem isFinite_pack (s : Sign) {m : Nat} {e : Int} (positive : 0 < m) (low : e ≤ 970) :
    (UnpackedFloat.unpack .binary64
      (UnpackedFloat.pack .binary64 (.finite s m e positive))).isFinite = true := by
  have packed {e : BitVec 11} {m : BitVec 52} (finite : e.toNat ≠ 2047) :
      (UnpackedFloat.unpack .binary64 (packComponents .binary64 s e m)).isFinite = true := by
    rw [unpack_packComponents]
    exact (isFinite_ofFields _).mpr finite
  rw [pack_finite, if_neg (by omega)]
  split
  · refine packed ?_
    rw [BitVec.toNat_ofNat]
    omega
  · exact packed (by decide)

theorem mantissa_shiftRight (m : ExtendedMantissa) (k : Nat) :
    (m >>> k).mantissa = m.mantissa / 2 ^ k := by
  induction k with
  | zero => exact (Nat.div_one _).symm
  | succ k ih =>
    have half : (m >>> (k + 1)).mantissa = (m >>> k).mantissa / 2 := rfl
    rw [half, ih, Nat.div_div_eq_div_mul, Nat.pow_succ]

theorem roundedMantissa_le (m : ExtendedMantissa) : m.roundedMantissa ≤ m.mantissa + 1 := by
  unfold ExtendedMantissa.roundedMantissa Accuracy.roundToNearestEven
  split
  · exact Nat.le_succ _
  · exact Nat.le_succ _
  · omega
  · exact Nat.le_refl _

theorem mantissa_ofMantissaAndAccuracy (m : Nat) (accuracy : Accuracy) :
    (ExtendedMantissa.ofMantissaAndAccuracy m accuracy).mantissa = m := by
  cases accuracy with
  | exact => rfl
  | inexact side => cases side <;> rfl

theorem shiftToTargetExponent_le (m : Nat) (e : Int) (accuracy : Accuracy) :
    (shiftToTargetExponent .binary64 m e accuracy).1.mantissa ≤ m ∧
      (shiftToTargetExponent .binary64 m e accuracy).2 ≤
        max e (max (m.log2 + 1 + e - 53) (-1074)) := by
  have target : Format.binary64.targetExponent (totalExponent m e) =
      max (m.log2 + 1 + e - 53) (-1074) := rfl
  unfold shiftToTargetExponent shiftToExponent
  rw [target]
  constructor
  · show (_ >>> _ : ExtendedMantissa).mantissa ≤ m
    rw [mantissa_shiftRight, mantissa_ofMantissaAndAccuracy]
    exact Nat.div_le_self _ _
  · dsimp only
    omega

/-- Rounding a mantissa of not too many digits raises the exponent by not too much. -/
theorem isFinite_roundWithAccuracy (s : Sign) {m : Nat} {e : Int} (accuracy : Accuracy)
    (digits : m < 2 ^ 106) (low : e ≤ 800) :
    (UnpackedFloat.unpack .binary64 (UnpackedFloat.pack .binary64
      (roundWithAccuracy .binary64 s m e accuracy))).isFinite = true := by
  have log2_le {n : Nat} (small : n < 2 ^ 107) : n.log2 ≤ 106 := by
    by_cases zero : n = 0
    · rw [zero]
      decide
    · exact Nat.le_of_lt_succ ((Nat.log2_lt zero).mpr small)
  have first := shiftToTargetExponent_le m e accuracy
  have size := log2_le (Nat.lt_trans digits (by decide))
  unfold roundWithAccuracy
  generalize shiftToTargetExponent .binary64 m e accuracy = shifted at first
  obtain ⟨em, e'⟩ := shifted
  dsimp only at first ⊢
  have rounded := roundedMantissa_le em
  have second := shiftToTargetExponent_le em.roundedMantissa e' .exact
  have size' := log2_le (by omega : em.roundedMantissa < 2 ^ 107)
  by_cases none : (shiftToTargetExponent .binary64 em.roundedMantissa e' .exact).1.mantissa = 0
  · rw [dif_pos none]
    exact isFinite_pack_zero s
  · rw [dif_neg none]
    exact isFinite_pack s _ (by omega)

/-- Rounding gives zero or a finite number, of the sign it is given. -/
theorem roundWithAccuracy_cases (s : Sign) (m : Nat) (e : Int) (accuracy : Accuracy) :
    roundWithAccuracy .binary64 s m e accuracy = .zero s ∨
      ∃ m' e' positive, roundWithAccuracy .binary64 s m e accuracy = .finite s m' e' positive := by
  by_cases none : (shiftToTargetExponent .binary64
      (shiftToTargetExponent .binary64 m e accuracy).1.roundedMantissa
      (shiftToTargetExponent .binary64 m e accuracy).2 .exact).1.mantissa = 0
  · exact .inl (dif_pos none)
  · exact .inr ⟨_, _, _, dif_neg none⟩

theorem not_isNaN_roundWithAccuracy (s : Sign) (m : Nat) (e : Int) (accuracy : Accuracy) :
    (roundWithAccuracy .binary64 s m e accuracy).isNaN = false := by
  obtain rounded | ⟨_, _, _, rounded⟩ := roundWithAccuracy_cases s m e accuracy
  · rw [rounded]
    rfl
  · rw [rounded]
    rfl

theorem divCore_le {m₁ m₂ : Nat} (e₁ e₂ : Int) (digits₁ : m₁ < 2 ^ 53) (digits₂ : m₂ < 2 ^ 53) :
    (divCore .binary64 m₁ e₁ m₂ e₂).1 < 2 ^ 106 ∧
      (divCore .binary64 m₁ e₁ m₂ e₂).2.1 ≤ e₁ - e₂ := by
  have log2_le {m : Nat} (digits : m < 2 ^ 53) : m.log2 ≤ 52 := by
    by_cases zero : m = 0
    · rw [zero]
      decide
    · exact Nat.le_of_lt_succ ((Nat.log2_lt zero).mpr digits)
  have size₁ := log2_le digits₁
  have size₂ := log2_le digits₂
  have target : Format.binary64.targetExponent (totalExponent m₁ e₁ - totalExponent m₂ e₂) =
      max ((m₁.log2 + 1 + e₁) - (m₂.log2 + 1 + e₂) - 53) (-1074) := rfl
  unfold divCore
  rw [target]
  dsimp only
  constructor
  · refine Nat.lt_of_le_of_lt (Nat.div_le_self _ _) ?_
    rw [Nat.shiftLeft_eq]
    calc m₁ * 2 ^ _ < 2 ^ (m₁.log2 + 1) * 2 ^ _ :=
            Nat.mul_lt_mul_of_pos_right Nat.lt_log2_self (Nat.two_pow_pos _)
      _ = 2 ^ (m₁.log2 + 1 + _) := (Nat.pow_add ..).symm
      _ ≤ 2 ^ 106 := Nat.pow_le_pow_right (by decide) (by omega)
  · exact Int.min_le_left _ _

theorem unpack_of_positive {y : Float} (positive : 0 < y) :
    y.toModel.unpack = .infinity .positive ∨ ∃ m e some, y.toModel.unpack =
      .finite .positive m e some := by
  have below : (UnpackedFloat.zero .positive).lt y.toModel.unpack = true :=
    of_decide_eq_true positive
  cases kind : y.toModel.unpack with
  | notANumber | zero =>
    rw [kind] at below
    cases below
  | infinity s =>
    cases s with
    | positive => exact .inl rfl
    | negative =>
      rw [kind] at below
      cases below
  | finite s m e some =>
    cases s with
    | positive => exact .inr ⟨m, e, some, rfl⟩
    | negative =>
      rw [kind] at below
      cases below

theorem unpack_div (x y : Float) :
    (x / y).toModel.unpack = UnpackedFloat.unpack .binary64 (UnpackedFloat.pack .binary64
      (UnpackedFloat.div .binary64 x.toModel.unpack y.toModel.unpack)) := rfl

/-- A finite number divided by a positive one is a number, be it infinite. -/
theorem isNaN_div {x y : Float} (finite : x.isFinite = true) (positive : 0 < y) :
    (x / y).isNaN = false := by
  have quotient :
      (UnpackedFloat.div .binary64 x.toModel.unpack y.toModel.unpack).isNaN = false := by
    have finite : x.toModel.unpack.isFinite = true := finite
    cases numerator : x.toModel.unpack with
    | notANumber | infinity =>
      rw [numerator] at finite
      cases finite
    | zero s =>
      obtain infinite | ⟨m, e, some, unpacked⟩ := unpack_of_positive positive
      · rw [infinite]
        rfl
      · rw [unpacked]
        rfl
    | finite s m e some =>
      obtain infinite | ⟨m', e', some', unpacked⟩ := unpack_of_positive positive
      · rw [infinite]
        rfl
      · rw [unpacked]
        exact not_isNaN_roundWithAccuracy ..
  exact isNaN_pack quotient

theorem beq_self {x : Float} (number : x.isNaN = false) : (x == x) = true := by
  have compared : (x == x) = (x.toModel.unpack.compare x.toModel.unpack == some .eq) := rfl
  have number : x.toModel.unpack.isNaN = false := number
  rw [compared]
  cases kind : x.toModel.unpack with
  | notANumber =>
    rw [kind] at number
    cases number
  | infinity s => cases s <;> rfl
  | zero s => rfl
  | finite s m e positive =>
    have tied : (compare e e).then (compare m m) = .eq := by
      rw [Std.compare_self, Std.compare_self]
      rfl
    cases s with
    | positive =>
      show (some ((compare e e).then (compare m m)) == some .eq) = true
      rw [tied]
      rfl
    | negative =>
      show (some ((compare e e).then (compare m m)).swap == some .eq) = true
      rw [tied]
      rfl

/-- Dividing by sixty keeps a number that is not too large finite. -/
theorem isFinite_div_sixty {x : Float} (low : exponentField x ≤ 1800) :
    (x / 60).isFinite = true := by
  have sixty :
      (60 : Float).toModel.unpack = .finite .positive (60 * 2 ^ 47) (-47) (by decide) := rfl
  have fraction := fractionField_lt x
  show (UnpackedFloat.unpack .binary64 (UnpackedFloat.pack .binary64
    (UnpackedFloat.div .binary64 x.toModel.unpack (60 : Float).toModel.unpack))).isFinite = true
  rw [sixty, unpack_toModel]
  by_cases bottom : exponentField x = 0
  · by_cases none : fractionField x = 0
    · rw [bottom, none, ofFields_zero]
      exact isFinite_pack_zero _
    · rw [bottom, ofFields_subnormal _ none]
      have core := divCore_le (-1074) (-47) (by omega : fractionField x < 2 ^ 53)
        (by decide : 60 * 2 ^ 47 < 2 ^ 53)
      exact isFinite_roundWithAccuracy _ _ core.1 (by omega)
  · rw [ofFields_normal _ (by omega) bottom]
    have core := divCore_le (exponentField x - 1075) (-47)
      (by omega : 2 ^ 52 + fractionField x < 2 ^ 53)
      (by decide : 60 * 2 ^ 47 < 2 ^ 53)
    exact isFinite_roundWithAccuracy _ _ core.1 (by omega)

theorem roundHalfEven_le (num den : Nat) : roundHalfEven num den ≤ num / den + 1 := by
  unfold roundHalfEven
  dsimp only
  split
  · exact Nat.le_succ _
  · split
    · exact Nat.le_refl _
    · split
      · exact Nat.le_succ _
      · exact Nat.le_refl _

theorem nearestBits_le_of_lt {n digits : Nat} (small : n < 2 ^ digits) :
    nearestBits n 1 ≤ (digits + 1024) * 2 ^ 52 := by
  have scaled : n * unitsInOne < 2 ^ (digits + 1074) := by
    calc n * unitsInOne < 2 ^ digits * unitsInOne :=
            Nat.mul_lt_mul_of_pos_right small unitsInOne_pos
      _ = 2 ^ (digits + 1074) := by rw [unitsInOne_eq, Nat.pow_add]
  have log2_lt : (n * unitsInOne).log2 < digits + 1074 := by
    by_cases zero : n * unitsInOne = 0
    · rw [zero, Nat.log2_zero]
      omega
    · exact (Nat.log2_lt zero).mpr scaled
  have mantissa : n * unitsInOne / 2 ^ ((n * unitsInOne).log2 - 52) < 2 ^ 53 := by
    rw [Nat.div_lt_iff_lt_mul (Nat.two_pow_pos _), ← Nat.pow_add]
    exact Nat.lt_of_lt_of_le Nat.lt_log2_self (Nat.pow_le_pow_right (by decide) (by omega))
  have rounded := roundHalfEven_le (n * unitsInOne) (2 ^ ((n * unitsInOne).log2 - 52))
  rw [nearestBits_eq, Nat.div_one, Nat.one_mul]
  generalize n * unitsInOne = units at *
  have shift : (units.log2 - 52) * 2 ^ 52 ≤ (digits + 1021) * 2 ^ 52 :=
    Nat.mul_le_mul_right _ (by omega)
  omega

theorem exponentField_nearest {n : Nat} (small : n < 2 ^ 32) :
    exponentField (nearest n 1) ≤ 1056 := by
  have bits : (nearest n 1).toBits.toNat = nearestBits n 1 :=
    toNat_toBits_ofBits (nearestBits_le n 1)
  have bound := nearestBits_le_of_lt small
  rw [exponentField, bits, Nat.shiftRight_eq_div_pow]
  omega

theorem exponentField_ofInt {n : Int} (above : -2 ^ 31 ≤ n) (below : n < 2 ^ 31) :
    exponentField (ofInt n) ≤ 1056 := by
  cases n with
  | ofNat n =>
    have below : (n : Int) < 2 ^ 31 := below
    exact exponentField_nearest (by omega)
  | negSucc n =>
    have low := exponentField_nearest (by omega : n + 1 < 2 ^ 32)
    have fraction := fractionField_lt (nearest (n + 1) 1)
    have finite : (nearest (n + 1) 1).isFinite = true := (isFinite_iff _).mpr (by omega)
    have bits := toNat_toBits_neg finite
    rw [ofInt, exponentField, bits, Nat.shiftRight_eq_div_pow]
    omega

end CalcLength.Binary64

namespace CalcLength.Sixtieths

open Binary64

theorem isFinite_toPixels (size : Sixtieths) : size.toPixels.isFinite = true := by
  have low := exponentField_ofInt size.count.le_toInt size.count.toInt_lt
  exact isFinite_div_sixty (Nat.le_trans low (by decide))

end CalcLength.Sixtieths
