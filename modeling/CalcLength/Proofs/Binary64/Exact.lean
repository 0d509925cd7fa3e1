import CalcLength.Decimal.Shortest
import CalcLength.Proofs.Binary64.Fields

namespace CalcLength.Binary64

theorem unitsInOne_eq : unitsInOne = 2 ^ 1074 := by
  unfold unitsInOne
  -- The exponent is hidden, so that nothing tries to compute the power.
  generalize 1074 = places
  exact Nat.one_shiftLeft places

theorem unitsInOne_pos : 0 < unitsInOne :=
  Nat.lt_of_lt_of_eq (Nat.two_pow_pos _) unitsInOne_eq.symm

theorem significand_eq (x : Float) :
    significand x = if exponentField x = 0 then fractionField x else fractionField x + 2 ^ 52 := rfl

theorem units_eq (x : Float) : units x = significand x * 2 ^ shift x :=
  Nat.shiftLeft_eq _ _

theorem nearestBits_eq (num den : Nat) : nearestBits num den =
    min (((num * unitsInOne / den).log2 - 52) * 2 ^ 52 +
      roundHalfEven (num * unitsInOne) (den * 2 ^ ((num * unitsInOne / den).log2 - 52)))
        infinityBits := by
  rw [nearestBits, Nat.shiftLeft_eq, Nat.shiftLeft_eq]

theorem roundHalfEven_mul (n : Nat) {d : Nat} (positive : 0 < d) : roundHalfEven (n * d) d = n := by
  rw [roundHalfEven, Nat.mul_div_cancel n positive, Nat.mul_mod_left]
  simp only [Nat.mul_zero, if_pos positive]

theorem nearestBits_zero (den : Nat) (positive : 0 < den) : nearestBits 0 den = 0 := by
  have rounded := roundHalfEven_mul 0 positive
  rw [Nat.zero_mul] at rounded
  simp [nearestBits, rounded]

/-- The highest digit of a number stands where its significand and its shift say. -/
theorem log2_units (x : Float) : (units x).log2 - 52 = shift x := by
  have fraction := fractionField_lt x
  rw [units_eq, significand_eq, shift]
  split
  · rename_i subnormal
    rw [subnormal, Nat.pow_zero, Nat.mul_one]
    by_cases zero : fractionField x = 0
    · rw [zero]
      rfl
    · have small := (Nat.log2_lt zero).mpr fraction
      omega
  · rename_i normal
    have least : 2 ^ (52 + (exponentField x - 1)) ≤
        (fractionField x + 2 ^ 52) * 2 ^ (exponentField x - 1) := by
      rw [Nat.pow_add]
      exact Nat.mul_le_mul_right _ (Nat.le_add_left _ _)
    have most : (fractionField x + 2 ^ 52) * 2 ^ (exponentField x - 1) <
        2 ^ (52 + (exponentField x - 1) + 1) := by
      rw [Nat.add_right_comm, Nat.pow_add]
      exact Nat.mul_lt_mul_of_pos_right (by omega) (Nat.two_pow_pos _)
    have positive : (fractionField x + 2 ^ 52) * 2 ^ (exponentField x - 1) ≠ 0 := by
      have := Nat.two_pow_pos (52 + (exponentField x - 1))
      omega
    rw [(Nat.log2_eq_iff positive).mpr ⟨least, most⟩]
    omega

theorem magnitudeBits_eq_shift_significand (x : Float) :
    magnitudeBits x = shift x * 2 ^ 52 + significand x := by
  rw [magnitudeBits_eq, shift, significand]
  split <;> omega

/-- What is exactly a finite number is read as that number. -/
theorem nearestBits_exact {x : Float} (finite : x.isFinite = true) {num den : Nat}
    (positive : 0 < den) (exact : num * unitsInOne = units x * den) :
    nearestBits num den = magnitudeBits x := by
  have bounded := magnitudeBits_lt finite
  have whole : units x * den / den = units x := Nat.mul_div_cancel _ positive
  have rounded : roundHalfEven (units x * den) (den * 2 ^ shift x) = significand x := by
    rw [units_eq, Nat.mul_assoc, Nat.mul_comm (2 ^ shift x) den]
    exact roundHalfEven_mul _ (Nat.mul_pos positive (Nat.two_pow_pos _))
  rw [nearestBits_eq, exact, whole, log2_units, rounded, ← magnitudeBits_eq_shift_significand]
  exact Nat.min_eq_left (Nat.le_of_lt bounded)

end CalcLength.Binary64

namespace CalcLength.Decimal

open Binary64

theorem two_pow_le_ten_pow (n : Nat) : 2 ^ (3 * n) ≤ 10 ^ n := by
  rw [Nat.pow_mul]
  exact Nat.pow_le_pow_left (by decide) n

theorem twice_two_pow (m n : Nat) : 2 * (2 ^ m * 2 ^ n) = 2 ^ (m + n + 1) := by
  rw [← Nat.pow_add, Nat.pow_succ']

theorem mul_five_pow_mul_two_pow (m n : Nat) : m * 5 ^ n * 2 ^ n = m * 10 ^ n := by
  rw [Nat.mul_assoc, ← Nat.mul_pow]

theorem numerator_eq (d : Decimal) : d.numerator = d.coefficient * 10 ^ d.exponent.toNat := rfl

theorem denominator_eq (d : Decimal) : d.denominator = 10 ^ (-d.exponent).toNat := rfl

theorem denominator_pos (d : Decimal) : 0 < d.denominator :=
  Nat.pow_pos (by decide)

theorem nearest_of_coefficient_eq_zero {d : Decimal} (zero : d.coefficient = 0) :
    d.nearest = Float.ofBits 0 := by
  rw [nearest, Binary64.nearest, numerator, zero, Nat.zero_mul,
    nearestBits_zero _ d.denominator_pos]
  rfl

/-- Beyond `10 ^ 1100` every number but zero is infinite. -/
theorem nearest_of_large {d : Decimal} (positive : d.coefficient ≠ 0) (large : 1100 < d.exponent) :
    d.nearest = Float.ofBits (UInt64.ofNat infinityBits) := by
  obtain ⟨k, same⟩ : ∃ k : Nat, d.exponent = k := ⟨d.exponent.toNat, by omega⟩
  have den : d.denominator = 1 := by
    have none : (-d.exponent).toNat = 0 := by omega
    rw [denominator_eq, none, Nat.pow_zero]
  have num : 2 ^ (3 * k) ≤ d.numerator := by
    have power : d.exponent.toNat = k := by omega
    calc 2 ^ (3 * k) ≤ 10 ^ k := two_pow_le_ten_pow k
      _ ≤ d.coefficient * 10 ^ k := Nat.le_mul_of_pos_left _ (Nat.pos_of_ne_zero positive)
      _ = d.numerator := by rw [numerator_eq, power]
  have scaled : 2 ^ (3 * k) ≤ d.numerator * unitsInOne :=
    Nat.le_trans num (Nat.le_mul_of_pos_right _ unitsInOne_pos)
  have digits : 3 * k ≤ (d.numerator * unitsInOne).log2 :=
    (Nat.le_log2 (Nat.ne_of_gt (Nat.lt_of_lt_of_le (Nat.two_pow_pos _) scaled))).mpr scaled
  have top : infinityBits ≤ ((d.numerator * unitsInOne).log2 - 52) * 2 ^ 52 := by
    rw [infinityBits]
    omega
  rw [nearest, Binary64.nearest, nearestBits_eq, den, Nat.div_one,
    Nat.min_eq_right (Nat.le_trans top (Nat.le_add_right _ _))]

/-- A number far below the smallest positive double is zero. -/
theorem nearest_of_small {d : Decimal} (small : (d.coefficient.log2 + 1100 : Int) < -d.exponent) :
    d.nearest = Float.ofBits 0 := by
  obtain ⟨k, same⟩ : ∃ k : Nat, d.exponent = -(k : Int) := ⟨(-d.exponent).toNat, by omega⟩
  have num : d.numerator = d.coefficient := by
    have none : d.exponent.toNat = 0 := by omega
    rw [numerator_eq, none, Nat.pow_zero, Nat.mul_one]
  have den : d.denominator = 10 ^ k := by
    have power : (-d.exponent).toNat = k := by omega
    rw [denominator_eq, power]
  have digits : d.coefficient < 2 ^ (d.coefficient.log2 + 1) := Nat.lt_log2_self
  have below : 2 * (d.coefficient * unitsInOne) < 10 ^ k := by
    calc 2 * (d.coefficient * unitsInOne) < 2 * (2 ^ (d.coefficient.log2 + 1) * unitsInOne) := by
          exact Nat.mul_lt_mul_of_pos_left (Nat.mul_lt_mul_of_pos_right digits unitsInOne_pos)
            (by decide)
      _ = 2 ^ (d.coefficient.log2 + 1 + 1074 + 1) := by rw [unitsInOne_eq, twice_two_pow]
      _ ≤ 2 ^ k := Nat.pow_le_pow_right (by decide) (by omega)
      _ ≤ 10 ^ k := Nat.pow_le_pow_left (by decide) _
  have whole : d.coefficient * unitsInOne / 10 ^ k = 0 := Nat.div_eq_of_lt (by omega)
  have left : d.coefficient * unitsInOne % 10 ^ k = d.coefficient * unitsInOne :=
    Nat.mod_eq_of_lt (by omega)
  have rounded : roundHalfEven (d.coefficient * unitsInOne) (10 ^ k) = 0 := by
    simp only [roundHalfEven, whole, left, if_pos below]
  rw [nearest, Binary64.nearest, nearestBits_eq, num, den, whole]
  simp only [Nat.log2_zero, Nat.zero_sub, Nat.pow_zero, Nat.mul_one, rounded]
  rfl

/-- Where the exponent settles the answer, it is the right one. -/
theorem toFloat_eq_nearest (d : Decimal) : d.toFloat = d.nearest := by
  unfold toFloat
  split
  · rename_i zero
    exact (nearest_of_coefficient_eq_zero zero).symm
  · rename_i positive
    split
    · rename_i large
      exact (nearest_of_large positive large).symm
    · split
      · rename_i small
        exact (nearest_of_small small).symm
      · rfl

theorem readsBack_exact {x : Float} (finite : x.isFinite = true) :
    readsBack x (exact x) = true := by
  have whole : (exact x).numerator * unitsInOne = units x * (exact x).denominator := by
    have num : (exact x).numerator = (exact x).coefficient := Nat.mul_one _
    have den : (-(exact x).exponent).toNat = 1074 := rfl
    rw [num, denominator_eq, den, unitsInOne_eq]
    unfold exact
    generalize 1074 = places
    exact mul_five_pow_mul_two_pow (units x) places
  rw [readsBack, decide_eq_true_eq]
  exact nearestBits_exact finite (denominator_pos _) whole

/-- The digits that a finite number is written with are read as it. -/
theorem readsBack_shortest {x : Float} (finite : x.isFinite = true) :
    readsBack x (shortest x) = true := by
  unfold shortest
  split
  · rename_i zero
    have none : magnitudeBits x = 0 := by
      have exact_zero : 0 * unitsInOne = units x * 1 := by rw [zero, Nat.zero_mul, Nat.zero_mul]
      rw [← nearestBits_exact finite Nat.one_pos exact_zero, nearestBits_zero 1 Nat.one_pos]
    rw [readsBack, decide_eq_true_eq, none]
    exact nearestBits_zero 1 (by decide)
  · simp only
    cases found : (List.range' 1 17).findSome? fun digits => (neighbours (units x * 10 ^ lift)
        (Nat.toDigits 10 (units x * 10 ^ lift / unitsInOne)).length digits).find? (readsBack x) with
    | none => exact readsBack_exact finite
    | some d =>
      obtain ⟨digits, _, here⟩ := List.exists_of_findSome?_eq_some found
      exact List.find?_some here

end CalcLength.Decimal
