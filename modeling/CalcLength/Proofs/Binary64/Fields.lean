import Mathlib.Algebra.Group.Nat.Defs
import CalcLength.Binary64

namespace CalcLength.Binary64

open Float.Model (UnpackedFloat Format)
open Float.Model.UnpackedFloat
  (Sign unpackMantissa unpackExponent unpackSign packComponents packedInfinity packedZero packedNaN)

theorem toNat_unpackMantissa (b : BitVec 64) :
    (@unpackMantissa .binary64 b).toNat = b.toNat % 2 ^ 52 := by
  simp [unpackMantissa]

theorem toNat_unpackExponent (b : BitVec 64) :
    (@unpackExponent .binary64 b).toNat = b.toNat / 2 ^ 52 % 2 ^ 11 := by
  simp [unpackExponent, Nat.shiftRight_eq_div_pow]

theorem toNat_unpackSign (b : BitVec 64) : (@unpackSign .binary64 b).toNat = b.toNat / 2 ^ 63 := by
  have bound := b.isLt
  have sign : (@unpackSign .binary64 b).toNat = b.toNat >>> 63 % 2 ^ 1 :=
    BitVec.extractLsb'_toNat ..
  rw [sign, Nat.shiftRight_eq_div_pow]
  omega

theorem toNat_append {w v : Nat} (high : BitVec w) (low : BitVec v) :
    (high ++ low).toNat = high.toNat * 2 ^ v + low.toNat := by
  rw [BitVec.toNat_append, ← Nat.shiftLeft_add_eq_or_of_lt low.isLt, Nat.shiftLeft_eq]

theorem toNat_packComponents (s : Sign) (e : BitVec 11) (m : BitVec 52) :
    (packComponents .binary64 s e m).toNat = s.toBitVec.toNat * 2 ^ 63 +
      e.toNat * 2 ^ 52 + m.toNat := by
  show (s.toBitVec ++ e ++ m).toNat = _
  rw [toNat_append, toNat_append]
  omega

/-- The number with a sign, an exponent field and a fraction field. -/
def ofFields (s : Sign) (exponent fraction : Nat) : UnpackedFloat :=
  if exponent = 2047 then
    if fraction = 0 then .infinity s else .notANumber
  else if exponent = 0 then
    if some : fraction = 0 then .zero s else .finite s fraction (-1074) (Nat.pos_of_ne_zero some)
  else .finite s (2 ^ 52 + fraction) (exponent - 1075) (by omega)

/-- The sign that a number's highest bit stands for. -/
def signOf (bit : Nat) : Sign :=
  if bit = 0 then .positive else .negative

theorem toNat_signOf {bit : Nat} (bound : bit < 2) : (signOf bit).toBitVec.toNat = bit := by
  obtain rfl | rfl : bit = 0 ∨ bit = 1 := by omega
  · rfl
  · rfl

section ofFields

variable (s : Sign) {exponent fraction : Nat}

theorem ofFields_infinite : ofFields s 2047 0 = .infinity s := rfl

theorem ofFields_not_number (some : fraction ≠ 0) : ofFields s 2047 fraction = .notANumber := by
  rw [ofFields, if_pos rfl, if_neg some]

theorem ofFields_zero : ofFields s 0 0 = .zero s := rfl

theorem ofFields_subnormal (some : fraction ≠ 0) :
    ofFields s 0 fraction = .finite s fraction (-1074) (Nat.pos_of_ne_zero some) := by
  rw [ofFields, if_neg (by decide), if_pos rfl, dif_neg some]

theorem ofFields_normal (low : exponent ≠ 2047) (positive : exponent ≠ 0) :
    ofFields s exponent fraction = .finite s (2 ^ 52 + fraction) (exponent - 1075) (by omega) := by
  rw [ofFields, if_neg low, if_neg positive]

theorem isFinite_ofFields : (ofFields s exponent fraction).isFinite = true ↔ exponent ≠ 2047 := by
  by_cases top : exponent = 2047
  · subst top
    refine iff_of_false ?_ (absurd rfl)
    by_cases none : fraction = 0
    · subst none
      exact Bool.false_ne_true
    · rw [ofFields_not_number s none]
      exact Bool.false_ne_true
  · refine iff_of_true ?_ top
    by_cases bottom : exponent = 0
    · subst bottom
      by_cases none : fraction = 0
      · subst none
        rfl
      · rw [ofFields_subnormal s none]
        rfl
    · rw [ofFields_normal s top bottom]
      rfl

theorem neg_ofFields : (ofFields s exponent fraction).neg = ofFields (-s) exponent fraction := by
  by_cases top : exponent = 2047
  · subst top
    by_cases none : fraction = 0
    · subst none
      rfl
    · rw [ofFields_not_number s none, ofFields_not_number (-s) none]
      rfl
  · by_cases bottom : exponent = 0
    · subst bottom
      by_cases none : fraction = 0
      · subst none
        rfl
      · rw [ofFields_subnormal s none, ofFields_subnormal (-s) none]
        rfl
    · rw [ofFields_normal s top bottom, ofFields_normal (-s) top bottom]
      rfl

end ofFields

theorem finite_congr {s s' : Sign} {m m' : Nat} {e e' : Int} {positive : 0 < m} {positive' : 0 < m'}
    (sign : s = s') (mantissa : m = m') (exponent : e = e') :
    UnpackedFloat.finite s m e positive = .finite s' m' e' positive' := by
  subst sign mantissa exponent
  rfl

theorem unpack_eq_ofFields (b : BitVec 64) :
    UnpackedFloat.unpack .binary64 b =
      ofFields (signOf (b.toNat / 2 ^ 63)) (b.toNat / 2 ^ 52 % 2 ^ 11) (b.toNat % 2 ^ 52) := by
  have exponent := toNat_unpackExponent b
  have fraction := toNat_unpackMantissa b
  have bias : ((Format.binary64.exponentBias : Nat) : Int) = 1023 := rfl
  have width : ((Format.binary64.mantissaBitsWithoutImplicit : Nat) : Int) = 52 := rfl
  have top : @unpackExponent .binary64 b = -1#11 ↔ b.toNat / 2 ^ 52 % 2 ^ 11 = 2047 := by
    rw [← exponent, ← BitVec.toNat_inj]; rfl
  have bottom : @unpackExponent .binary64 b = 0#11 ↔ b.toNat / 2 ^ 52 % 2 ^ 11 = 0 := by
    rw [← exponent, ← BitVec.toNat_inj]; rfl
  have none : @unpackMantissa .binary64 b = 0#52 ↔ b.toNat % 2 ^ 52 = 0 := by
    rw [← fraction, ← BitVec.toNat_inj]; rfl
  have normal : (1#1 ++ @unpackMantissa .binary64 b).toNat = 2 ^ 52 + b.toNat % 2 ^ 52 := by
    rw [toNat_append, fraction]; rfl
  have sign : Sign.ofBitVec (@unpackSign .binary64 b) = signOf (b.toNat / 2 ^ 63) := by
    simp only [Sign.ofBitVec, signOf, ← toNat_unpackSign, ← BitVec.toNat_inj]; rfl
  unfold UnpackedFloat.unpack
  dsimp only
  by_cases highest : b.toNat / 2 ^ 52 % 2 ^ 11 = 2047
  · rw [if_pos (top.mpr highest), highest]
    by_cases zero : b.toNat % 2 ^ 52 = 0
    · rw [if_pos (none.mpr zero), sign, zero, ofFields_infinite]
    · rw [if_neg (mt none.mp zero), ofFields_not_number _ zero]
  · rw [if_neg (mt top.mp highest)]
    by_cases lowest : b.toNat / 2 ^ 52 % 2 ^ 11 = 0
    · rw [if_pos (bottom.mpr lowest), lowest]
      by_cases zero : b.toNat % 2 ^ 52 = 0
      · rw [dif_pos (none.mpr zero), sign, zero, ofFields_zero]
      · rw [dif_neg (mt none.mp zero), ofFields_subnormal _ zero]
        exact finite_congr sign fraction (by rw [exponent, lowest, bias, width]; rfl)
    · rw [if_neg (mt bottom.mp lowest), ofFields_normal _ highest lowest]
      exact finite_congr sign normal (by rw [exponent, bias, width]; omega)

theorem pack_finite (s : Sign) (m : Nat) (e : Int) (positive : 0 < m) :
    UnpackedFloat.pack .binary64 (.finite s m e positive) =
      if 2 ^ 11 ≤ (e + 1023 + 52).toNat + 1 then packedInfinity .binary64 s
      else if m.log2 + 1 = 53 then
        packComponents .binary64 s (BitVec.ofNat 11 (e + 1023 + 52).toNat) (BitVec.ofNat 52 m)
      else packComponents .binary64 s 0#11 (BitVec.ofNat 52 m) := rfl

theorem log2_normal {fraction : Nat} (small : fraction < 2 ^ 52) :
    (2 ^ 52 + fraction).log2 = 52 := by
  rw [Nat.log2_eq_iff (by omega)]
  omega

theorem toNat_pack_ofFields (s : Sign) {exponent fraction : Nat} (e : exponent < 2 ^ 11)
    (m : fraction < 2 ^ 52) (number : exponent = 2047 → fraction = 0) :
    (UnpackedFloat.pack .binary64 (ofFields s exponent fraction)).toNat =
      s.toBitVec.toNat * 2 ^ 63 + exponent * 2 ^ 52 + fraction := by
  by_cases top : exponent = 2047
  · rw [top, number top, ofFields_infinite]
    exact toNat_packComponents s _ _
  · by_cases bottom : exponent = 0
    · by_cases none : fraction = 0
      · rw [bottom, none, ofFields_zero]
        exact toNat_packComponents s _ _
      · have small : fraction.log2 < 52 := (Nat.log2_lt none).mpr m
        rw [bottom, ofFields_subnormal s none, pack_finite, if_neg (by decide), if_neg (by omega),
          toNat_packComponents, BitVec.toNat_ofNat, BitVec.toNat_ofNat, Nat.mod_eq_of_lt m]
    · have biased : ((exponent : Int) - 1075 + 1023 + 52).toNat = exponent := by omega
      rw [ofFields_normal s top bottom, pack_finite, biased, log2_normal m, if_neg (by omega),
        if_pos rfl, toNat_packComponents, BitVec.toNat_ofNat, BitVec.toNat_ofNat,
        Nat.mod_eq_of_lt e]
      omega

theorem toNat_toBits (x : Float) :
    x.toBits.toNat = x.toBits.toNat / 2 ^ 63 * 2 ^ 63 +
      exponentField x * 2 ^ 52 + fractionField x := by
  have bound := x.toBits.toNat_lt
  simp only [exponentField, fractionField]
  omega

theorem unpack_toModel (x : Float) :
    x.toModel.unpack = ofFields (signOf (x.toBits.toNat / 2 ^ 63))
      (exponentField x) (fractionField x) := by
  rw [exponentField, Nat.shiftRight_eq_div_pow]
  exact unpack_eq_ofFields x.toModel.toBits.toBitVec

theorem eq_of_toNat_toBits {x y : Float} (same : x.toBits.toNat = y.toBits.toNat) : x = y := by
  obtain ⟨⟨a, _⟩⟩ := x
  obtain ⟨⟨b, _⟩⟩ := y
  obtain rfl : a = b := UInt64.toNat_inj.mp same
  rfl

theorem exponentField_lt (x : Float) : exponentField x < 2 ^ 11 :=
  Nat.mod_lt _ (by decide)

theorem fractionField_lt (x : Float) : fractionField x < 2 ^ 52 :=
  Nat.mod_lt _ (by decide)

/-- The finite numbers are those whose exponent field is not the topmost. -/
theorem isFinite_iff (x : Float) : x.isFinite = true ↔ exponentField x < 2047 := by
  have bound := exponentField_lt x
  have unpacked : x.isFinite =
      (ofFields (signOf (x.toBits.toNat / 2 ^ 63)) (exponentField x) (fractionField x)).isFinite :=
    congrArg UnpackedFloat.isFinite (unpack_toModel x)
  rw [unpacked, isFinite_ofFields]
  omega

theorem not_isNaN_of_isFinite {x : Float} (finite : x.isFinite = true) : x.isNaN = false := by
  revert finite
  show x.toModel.unpack.isFinite = true → x.toModel.unpack.isNaN = false
  cases x.toModel.unpack with
  | notANumber => exact fun finite => absurd finite Bool.false_ne_true
  | infinity => exact fun _ => rfl
  | zero => exact fun _ => rfl
  | finite => exact fun _ => rfl

theorem not_isInf_of_isFinite {x : Float} (finite : x.isFinite = true) : x.isInf = false := by
  revert finite
  show x.toModel.unpack.isFinite = true → x.toModel.unpack.isInf = false
  cases x.toModel.unpack with
  | infinity => exact fun finite => absurd finite Bool.false_ne_true
  | notANumber => exact fun _ => rfl
  | zero => exact fun _ => rfl
  | finite => exact fun _ => rfl

theorem isInf_of_not_isFinite {x : Float} (infinite : x.isFinite = false)
    (number : x.isNaN = false) : x.isInf = true := by
  revert infinite number
  show x.toModel.unpack.isFinite = false → x.toModel.unpack.isNaN = false →
    x.toModel.unpack.isInf = true
  cases x.toModel.unpack with
  | infinity => exact fun _ _ => rfl
  | notANumber => exact fun _ number => absurd number.symm Bool.false_ne_true
  | zero => exact fun infinite _ => absurd infinite.symm Bool.false_ne_true
  | finite => exact fun infinite _ => absurd infinite.symm Bool.false_ne_true

/-- A number is made from the bits up to those of infinity. -/
theorem toNat_toBits_ofBits {bits : Nat} (number : bits ≤ infinityBits) :
    (Float.ofBits (UInt64.ofNat bits)).toBits.toNat = bits := by
  rw [infinityBits] at number
  have stored : (UInt64.ofNat bits).toBitVec.toNat = bits :=
    UInt64.toNat_ofNat_of_lt' (by simp only [UInt64.size]; omega)
  show (UnpackedFloat.pack .binary64
    (UnpackedFloat.unpack .binary64 (UInt64.ofNat bits).toBitVec)).toNat = bits
  rw [unpack_eq_ofFields, stored,
    toNat_pack_ofFields _ (Nat.mod_lt _ (by decide)) (Nat.mod_lt _ (by decide)) (by omega)]
  rw [signOf, if_pos (by omega)]
  show 0 * 2 ^ 63 + _ + _ = _
  omega

/-- Negation turns the sign bit around. -/
theorem toNat_toBits_neg {x : Float} (finite : x.isFinite = true) :
    (-x).toBits.toNat = (1 - x.toBits.toNat / 2 ^ 63) * 2 ^ 63 +
      exponentField x * 2 ^ 52 + fractionField x := by
  have low := (isFinite_iff x).mp finite
  have bound := x.toBits.toNat_lt
  have sign : (-signOf (x.toBits.toNat / 2 ^ 63)).toBitVec.toNat = 1 - x.toBits.toNat / 2 ^ 63 := by
    rw [signOf]
    split
    · rename_i positive
      rw [positive]
      rfl
    · rename_i negative
      have one : x.toBits.toNat / 2 ^ 63 = 1 := by omega
      rw [one]
      rfl
  have packed : (-x).toBits.toNat = (UnpackedFloat.pack .binary64 x.toModel.unpack.neg).toNat := rfl
  rw [packed, unpack_toModel, neg_ofFields,
    toNat_pack_ofFields _ (exponentField_lt x) (fractionField_lt x) (by omega), sign]

/-- The number with its sign cleared. -/
def magnitude (x : Float) : Float :=
  Float.ofBits (UInt64.ofNat (magnitudeBits x))

theorem magnitudeBits_eq (x : Float) :
    magnitudeBits x = exponentField x * 2 ^ 52 + fractionField x := by
  have bits := toNat_toBits x
  have bound := x.toBits.toNat_lt
  simp only [magnitudeBits]
  omega

theorem magnitudeBits_lt {x : Float} (finite : x.isFinite = true) :
    magnitudeBits x < infinityBits := by
  have low := (isFinite_iff x).mp finite
  have fraction := fractionField_lt x
  rw [magnitudeBits_eq, infinityBits]
  omega

theorem toNat_toBits_magnitude {x : Float} (finite : x.isFinite = true) :
    (magnitude x).toBits.toNat = magnitudeBits x :=
  toNat_toBits_ofBits (Nat.le_of_lt (magnitudeBits_lt finite))

theorem exponentField_magnitude {x : Float} (finite : x.isFinite = true) :
    exponentField (magnitude x) = exponentField x := by
  have fraction := fractionField_lt x
  have size := magnitudeBits_lt finite
  rw [infinityBits, magnitudeBits_eq] at size
  rw [exponentField, toNat_toBits_magnitude finite, magnitudeBits_eq]
  omega

theorem fractionField_magnitude {x : Float} (finite : x.isFinite = true) :
    fractionField (magnitude x) = fractionField x := by
  have fraction := fractionField_lt x
  rw [fractionField, toNat_toBits_magnitude finite, magnitudeBits_eq]
  omega

theorem isFinite_magnitude {x : Float} (finite : x.isFinite = true) :
    (magnitude x).isFinite = true := by
  rw [isFinite_iff, exponentField_magnitude finite, ← isFinite_iff]
  exact finite

/-- A finite number is its magnitude, negated if its sign is set. -/
theorem eq_signed_magnitude {x : Float} (finite : x.isFinite = true) :
    (if isNegative x then -magnitude x else magnitude x) = x := by
  have bits := toNat_toBits x
  have bound := x.toBits.toNat_lt
  have fields := magnitudeBits_eq x
  have size := magnitudeBits_lt finite
  rw [infinityBits] at size
  apply eq_of_toNat_toBits
  split
  · rename_i negative
    rw [isNegative, decide_eq_true_eq] at negative
    rw [toNat_toBits_neg (isFinite_magnitude finite), exponentField_magnitude finite,
      fractionField_magnitude finite, toNat_toBits_magnitude finite]
    omega
  · rename_i positive
    rw [isNegative, decide_eq_true_eq] at positive
    rw [toNat_toBits_magnitude finite]
    omega

end CalcLength.Binary64
