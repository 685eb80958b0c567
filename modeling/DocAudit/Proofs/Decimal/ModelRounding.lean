import DocAudit.Decimal.Binary
import Mathlib

/-!
How floating-point results are rounded. A positive number is measured in a power of two that leaves
it 53 digits before the point, and the nearest natural number is taken; halfway between two it is the
even one. A mantissa that was cut off keeps two bits that tell whether what is missing is nothing,
less than one half, one half or more. They survive further cuts, and what is rounded by them is what
rounds the number itself.
-/

namespace DocAudit.Decimal

/-! ## Nearest even numbers -/

/-- No natural number is nearer, and one of two that are equally near is even. -/
structure IsNearest (exact : ℚ) (number : ℕ) : Prop where
  distance : |exact - number| ≤ 1 / 2
  even : |exact - number| = 1 / 2 → number % 2 = 0

namespace IsNearest

variable {exact : ℚ} {number other least most : ℕ}

theorem of_lt (nearer : |exact - number| < 1 / 2) : IsNearest exact number :=
  ⟨nearer.le, fun halfway => absurd halfway nearer.ne⟩

theorem natCast (number : ℕ) : IsNearest number number :=
  of_lt (by norm_num)

theorem le_of_nearest (nearest : IsNearest exact number) (nearest' : IsNearest exact other) :
    number ≤ other := by
  by_contra beyond
  have next : (other : ℚ) + 1 ≤ number := by exact_mod_cast Nat.not_le.mp beyond
  obtain ⟨below, -⟩ := abs_le.mp nearest.distance
  obtain ⟨-, above⟩ := abs_le.mp nearest'.distance
  -- Both are at a distance of one half, so one of them would have to be odd.
  have halfway : exact - number = -(1 / 2) := by linarith
  have halfway' : exact - other = 1 / 2 := by linarith
  have isNext : (number : ℚ) = other + 1 := by linarith
  have even := nearest.even (by rw [halfway]; norm_num)
  have even' := nearest'.even (by rw [halfway']; norm_num)
  have isNext' : number = other + 1 := by exact_mod_cast isNext
  omega

theorem unique (nearest : IsNearest exact number) (nearest' : IsNearest exact other) :
    number = other :=
  le_antisymm (nearest.le_of_nearest nearest') (nearest'.le_of_nearest nearest)

theorem least_le (nearest : IsNearest exact number) (within : (least : ℚ) ≤ exact) :
    least ≤ number := by
  by_contra below
  have next : (number : ℚ) + 1 ≤ least := by exact_mod_cast Nat.not_le.mp below
  have far := (abs_le.mp nearest.distance).2
  linarith

theorem le_most (nearest : IsNearest exact number) (within : exact ≤ most) : number ≤ most := by
  by_contra above
  have next : (most : ℚ) + 1 ≤ number := by exact_mod_cast Nat.not_le.mp above
  have far := (abs_le.mp nearest.distance).1
  linarith

end IsNearest

/-- The unit in which a positive number has 53 binary digits before the point. -/
structure IsUnitOf (unit : ℤ) (exact : ℚ) : Prop where
  enough : 2 ^ 52 ≤ exact / 2 ^ unit
  few : exact / 2 ^ unit < 2 ^ 53

/-- What a positive number is rounded to. -/
def IsRounded (exact value : ℚ) : Prop :=
  ∃ unit digits, IsUnitOf unit exact ∧ IsNearest (exact / 2 ^ unit) digits ∧
    value = digits * 2 ^ unit

theorem two_zpow_pos (unit : ℤ) : (0 : ℚ) < 2 ^ unit :=
  zpow_pos (by norm_num) unit

theorem natCast_div_two_zpow_neg (number shift : ℕ) :
    (number : ℚ) / 2 ^ (-(shift : ℤ)) = (number * 2 ^ shift : ℕ) := by
  rw [zpow_neg, div_inv_eq_mul, zpow_natCast, Nat.cast_mul, Nat.cast_pow, Nat.cast_ofNat]

theorem two_pow_le_scaled {number : ℕ} (positive : 0 < number) (few : number < 2 ^ 53) :
    2 ^ 52 ≤ number * 2 ^ (52 - number.log2) := by
  have log : number.log2 < 53 := (Nat.log2_lt positive.ne').mpr few
  calc 2 ^ 52 = 2 ^ number.log2 * 2 ^ (52 - number.log2) := by
        rw [← pow_add, Nat.add_sub_cancel' (by omega)]
    _ ≤ number * 2 ^ (52 - number.log2) :=
        Nat.mul_le_mul_right _ (Nat.log2_self_le positive.ne')

theorem IsUnitOf.le {unit unit' : ℤ} {exact : ℚ} (isUnit : IsUnitOf unit exact)
    (isUnit' : IsUnitOf unit' exact) : unit ≤ unit' := by
  have enough := (le_div_iff₀ (two_zpow_pos unit)).mp isUnit.enough
  have few := (div_lt_iff₀ (two_zpow_pos unit')).mp isUnit'.few
  have below : (2 : ℚ) ^ (52 + unit) < 2 ^ (53 + unit') := by
    rw [zpow_add₀ two_ne_zero, zpow_add₀ two_ne_zero]
    exact enough.trans_lt few
  have exponents := (zpow_lt_zpow_iff_right₀ one_lt_two).mp below
  omega

namespace IsRounded

variable {exact value other : ℚ}

theorem unique (rounded : IsRounded exact value) (rounded' : IsRounded exact other) :
    value = other := by
  obtain ⟨unit, digits, isUnit, nearest, rfl⟩ := rounded
  obtain ⟨unit', digits', isUnit', nearest', rfl⟩ := rounded'
  obtain rfl : unit = unit' := le_antisymm (isUnit.le isUnit') (isUnit'.le isUnit)
  rw [nearest.unique nearest']

/-- Of a number with 53 digits the error is at most one half of the last one. -/
theorem error (rounded : IsRounded exact value) : |value - exact| ≤ exact / 2 ^ 53 := by
  obtain ⟨unit, digits, isUnit, nearest, rfl⟩ := rounded
  have positive := two_zpow_pos unit
  have enough := (le_div_iff₀ positive).mp isUnit.enough
  have scaled : digits * 2 ^ unit - exact = -((exact / 2 ^ unit - digits) * 2 ^ unit) := by
    rw [sub_mul, div_mul_cancel₀ _ positive.ne']
    ring
  calc |digits * 2 ^ unit - exact|
      = |exact / 2 ^ unit - digits| * 2 ^ unit := by
        rw [scaled, abs_neg, abs_mul, abs_of_pos positive]
    _ ≤ 1 / 2 * 2 ^ unit := mul_le_mul_of_nonneg_right nearest.distance positive.le
    _ ≤ exact / 2 ^ 53 := by linarith

theorem natCast {number : ℕ} (positive : 0 < number) (few : number < 2 ^ 53) :
    IsRounded number number := by
  have log : number.log2 < 53 := (Nat.log2_lt positive.ne').mpr few
  have notMany : number * 2 ^ (52 - number.log2) < 2 ^ 53 := by
    rw [show 53 = number.log2 + 1 + (52 - number.log2) by omega, pow_add]
    exact Nat.mul_lt_mul_of_pos_right Nat.lt_log2_self (Nat.two_pow_pos _)
  refine ⟨-(52 - number.log2 : ℕ), number * 2 ^ (52 - number.log2), ⟨?_, ?_⟩, ?_, ?_⟩
  · rw [natCast_div_two_zpow_neg]
    exact_mod_cast two_pow_le_scaled positive few
  · rw [natCast_div_two_zpow_neg]
    exact_mod_cast notMany
  · rw [natCast_div_two_zpow_neg]
    exact .natCast _
  · rw [← natCast_div_two_zpow_neg, div_mul_cancel₀ _ (two_zpow_pos _).ne']

end IsRounded

open Float.Model UnpackedFloat

/-! ## Cut mantissas -/

/-- What a cut mantissa tells of the number that it was cut from. -/
def Describes (cut : ExtendedMantissa) (exact : ℚ) : Prop :=
  match cut with
  | ⟨mantissa, false, false⟩ => exact = mantissa
  | ⟨mantissa, false, true⟩ => mantissa < exact ∧ exact < mantissa + 1 / 2
  | ⟨mantissa, true, false⟩ => exact = mantissa + 1 / 2
  | ⟨mantissa, true, true⟩ => mantissa + 1 / 2 < exact ∧ exact < mantissa + 1

namespace Describes

variable {cut : ExtendedMantissa} {exact : ℚ}

theorem bounds (describes : Describes cut exact) :
    cut.mantissa ≤ exact ∧ exact < cut.mantissa + 1 := by
  obtain ⟨mantissa, _ | _, _ | _⟩ := cut <;> simp only [Describes] at describes ⊢ <;>
    constructor <;> linarith

theorem isNearest (describes : Describes cut exact) : IsNearest exact cut.roundedMantissa := by
  obtain ⟨mantissa, roundBit, stickyBit⟩ := cut
  match roundBit, stickyBit, describes with
  | false, false, isMantissa =>
    rw [show exact = mantissa from isMantissa]
    exact .natCast mantissa
  | false, true, ⟨above, below⟩ =>
    change IsNearest exact mantissa
    exact .of_lt (abs_lt.mpr ⟨by linarith, by linarith⟩)
  | true, false, isHalfway =>
    change IsNearest exact (mantissa + mantissa % 2)
    rw [show exact = mantissa + 1 / 2 from isHalfway]
    refine ⟨?_, fun _ => by omega⟩
    rcases Nat.mod_two_eq_zero_or_one mantissa with even | odd
    · rw [even, add_zero, add_sub_cancel_left, abs_of_pos (by norm_num)]
    · rw [odd, Nat.cast_add_one, add_sub_add_left_eq_sub, abs_of_neg (by norm_num)]
      norm_num
  | true, true, ⟨above, below⟩ =>
    change IsNearest exact (mantissa + 1)
    refine .of_lt (abs_lt.mpr ?_)
    rw [Nat.cast_add_one]
    exact ⟨by linarith, by linarith⟩

theorem shiftRightOne (describes : Describes cut exact) :
    Describes cut.shiftRightOne (exact / 2) := by
  obtain ⟨mantissa, roundBit, stickyBit⟩ := cut
  have whole : (mantissa : ℚ) = (mantissa % 2 : ℕ) + 2 * (mantissa / 2 : ℕ) := by
    exact_mod_cast (Nat.mod_add_div mantissa 2).symm
  rcases Nat.mod_two_eq_zero_or_one mantissa with even | odd
  · rw [even, Nat.cast_zero, zero_add] at whole
    cases roundBit <;> cases stickyBit <;>
      simp only [Describes, ExtendedMantissa.shiftRightOne, even, whole] at describes ⊢ <;>
      simp <;> grind
  · rw [odd, Nat.cast_one] at whole
    cases roundBit <;> cases stickyBit <;>
      simp only [Describes, ExtendedMantissa.shiftRightOne, odd, whole] at describes ⊢ <;>
      simp <;> grind

theorem shiftRight (describes : Describes cut exact) (count : ℕ) :
    Describes (cut >>> count) (exact / 2 ^ count) := by
  induction count with
  | zero =>
    rw [pow_zero, div_one]
    exact describes
  | succ count induction =>
    rw [pow_succ, ← div_div]
    exact induction.shiftRightOne

end Describes

theorem describes_exact (mantissa : ℕ) :
    Describes (.ofMantissaAndAccuracy mantissa .exact) mantissa :=
  rfl

/-- The accuracy of a quotient is that of its remainder. -/
theorem describes_quotient (numerator : ℕ) {denominator : ℕ} (positive : 0 < denominator) :
    Describes
      (.ofMantissaAndAccuracy (numerator / denominator)
        (accuracyOfFraction (numerator % denominator) denominator))
      (numerator / denominator) := by
  have positive' : (0 : ℚ) < denominator := by exact_mod_cast positive
  have less : numerator % denominator < denominator := Nat.mod_lt _ positive
  have whole : (numerator : ℚ) = (numerator % denominator : ℕ) +
      denominator * (numerator / denominator : ℕ) := by
    exact_mod_cast (Nat.mod_add_div numerator denominator).symm
  rw [whole, accuracyOfFraction]
  generalize numerator / denominator = quotient
  generalize numerator % denominator = rest at less ⊢
  have split : (rest + denominator * quotient : ℚ) / denominator =
      quotient + rest / denominator := by
    rw [add_div, mul_div_cancel_left₀ _ positive'.ne', add_comm]
  rw [split]
  by_cases none : rest = 0
  · rw [if_pos none, none, Nat.cast_zero, zero_div, add_zero]
    exact describes_exact quotient
  · rw [if_neg none]
    have something : (0 : ℚ) < rest / denominator :=
      div_pos (by exact_mod_cast Nat.pos_of_ne_zero none) positive'
    have notAll : (rest : ℚ) / denominator < 1 := by
      rw [div_lt_one positive']
      exact_mod_cast less
    cases order : compare (2 * rest) denominator with
    | lt =>
      have below : (2 * rest : ℚ) < denominator := by exact_mod_cast compare_lt_iff_lt.mp order
      have half : (rest : ℚ) / denominator < 1 / 2 := by
        rw [div_lt_div_iff₀ positive' two_pos]
        linarith
      exact ⟨by linarith, by linarith⟩
    | eq =>
      have same : (2 * rest : ℚ) = denominator := by exact_mod_cast compare_eq_iff_eq.mp order
      have half : (rest : ℚ) / denominator = 1 / 2 := by
        rw [div_eq_div_iff positive'.ne' two_ne_zero]
        linarith
      rw [half]
      rfl
    | gt =>
      have above : (denominator : ℚ) < 2 * rest := by exact_mod_cast compare_gt_iff_gt.mp order
      have half : 1 / 2 < (rest : ℚ) / denominator := by
        rw [div_lt_div_iff₀ two_pos positive']
        linarith
      exact ⟨by linarith, by linarith⟩

theorem isNearest_roundDiv (numerator : ℕ) {denominator : ℕ} (positive : 0 < denominator) :
    IsNearest (numerator / denominator) (roundDiv numerator denominator) := by
  have nearest := (describes_quotient numerator positive).isNearest
  rw [accuracyOfFraction] at nearest
  rw [roundDiv]
  generalize (numerator / denominator : ℚ) = exact at nearest ⊢
  generalize numerator / denominator = quotient at nearest ⊢
  generalize numerator % denominator = rest at nearest ⊢
  by_cases none : rest = 0
  · rw [if_pos none] at nearest
    rwa [if_pos (.inl (by omega))]
  rw [if_neg none] at nearest
  cases order : compare (2 * rest) denominator with
  | lt =>
    rw [order] at nearest
    rwa [if_pos (.inl (compare_lt_iff_lt.mp order))]
  | eq =>
    rw [order] at nearest
    have same := compare_eq_iff_eq.mp order
    change IsNearest exact (quotient + quotient % 2) at nearest
    rcases Nat.mod_two_eq_zero_or_one quotient with even | odd
    · rw [even] at nearest
      rwa [if_pos (.inr ⟨same, even⟩)]
    · rw [odd] at nearest
      rwa [if_neg (by omega)]
  | gt =>
    rw [order] at nearest
    have above := compare_gt_iff_gt.mp order
    rwa [if_neg (by omega)]

theorem IsRounded.of_ratio {exact : ℚ} {unit : ℤ} {numerator denominator : ℕ}
    (ratio : exact / 2 ^ unit = numerator / denominator) (enough : 2 ^ 52 * denominator ≤ numerator)
    (few : numerator < 2 ^ 53 * denominator) :
    IsRounded exact (roundDiv numerator denominator * 2 ^ unit) := by
  have positive : 0 < denominator := Nat.pos_of_mul_pos_left (Nat.zero_lt_of_lt few)
  have positive' : (0 : ℚ) < denominator := by exact_mod_cast positive
  refine ⟨unit, _, ⟨?_, ?_⟩, ratio ▸ isNearest_roundDiv numerator positive, rfl⟩
  · rw [ratio, le_div_iff₀ positive']
    exact_mod_cast enough
  · rw [ratio, div_lt_iff₀ positive']
    exact_mod_cast few

/-! ## Rounding to the format -/

/-- A number far from the bounds of the format. -/
structure IsModerate (exact : ℚ) : Prop where
  least : 2 ^ (-200 : ℤ) ≤ exact
  most : exact ≤ 2 ^ (200 : ℤ)

theorem IsModerate.unit_bounds {unit : ℤ} {exact : ℚ} (moderate : IsModerate exact)
    (isUnit : IsUnitOf unit exact) : -253 < unit ∧ unit ≤ 148 := by
  have enough := (le_div_iff₀ (two_zpow_pos unit)).mp isUnit.enough
  have few := (div_lt_iff₀ (two_zpow_pos unit)).mp isUnit.few
  have above : (2 : ℚ) ^ (-200 : ℤ) < 2 ^ (53 + unit) := by
    rw [zpow_add₀ two_ne_zero]
    exact moderate.least.trans_lt few
  have below : (2 : ℚ) ^ (52 + unit) ≤ 2 ^ (200 : ℤ) := by
    rw [zpow_add₀ two_ne_zero]
    exact enough.trans moderate.most
  rw [zpow_lt_zpow_iff_right₀ one_lt_two] at above
  rw [zpow_le_zpow_iff_right₀ one_lt_two] at below
  omega

section Round

variable {mantissa : ℕ} {exponent : ℤ} {accuracy : Accuracy} {exact : ℚ}

theorem shiftToTargetExponent_eq (long : 52 ≤ mantissa.log2)
    (low : -1022 ≤ mantissa.log2 + exponent) (accuracy : Accuracy) :
    shiftToTargetExponent .binary64 mantissa exponent accuracy =
      (ExtendedMantissa.ofMantissaAndAccuracy mantissa accuracy >>> (mantissa.log2 - 52),
        exponent + (mantissa.log2 - 52 : ℕ)) := by
  have shift : (Format.binary64.targetExponent (totalExponent mantissa exponent) -
      exponent).toNat = mantissa.log2 - 52 := by
    simp only [Format.targetExponent, totalExponent, Format.mantissaBits, Format.minExponent]
    omega
  simp only [shiftToTargetExponent, shiftToExponent, shift]

theorem mantissa_ofMantissaAndAccuracy (mantissa : ℕ) (accuracy : Accuracy) :
    (ExtendedMantissa.ofMantissaAndAccuracy mantissa accuracy).mantissa = mantissa := by
  rcases accuracy with _ | (_ | _ | _) <;> rfl

theorem div_two_zpow_add (exact : ℚ) (exponent : ℤ) (shift : ℕ) :
    exact / 2 ^ (exponent + shift) = exact / 2 ^ exponent / 2 ^ shift := by
  rw [zpow_add₀ two_ne_zero, zpow_natCast, div_div]

theorem isUnitOf_of_describes
    (describes : Describes (.ofMantissaAndAccuracy mantissa accuracy) (exact / 2 ^ exponent))
    (long : 52 ≤ mantissa.log2) : IsUnitOf (exponent + (mantissa.log2 - 52 : ℕ)) exact := by
  have nonzero : mantissa ≠ 0 := by
    rintro rfl
    exact absurd long (by decide)
  obtain ⟨least, most⟩ := describes.bounds
  rw [mantissa_ofMantissaAndAccuracy] at least most
  have shifted : (2 : ℚ) ^ 52 * 2 ^ (mantissa.log2 - 52) = 2 ^ mantissa.log2 := by
    rw [← pow_add, Nat.add_sub_cancel' long]
  have enough : (2 : ℚ) ^ mantissa.log2 ≤ mantissa := by
    exact_mod_cast Nat.log2_self_le nonzero
  have few : (mantissa : ℚ) + 1 ≤ 2 ^ mantissa.log2 * 2 := by
    rw [← pow_succ]
    exact_mod_cast Nat.lt_log2_self
  have positive : (0 : ℚ) < 2 ^ (mantissa.log2 - 52) := pow_pos two_pos _
  constructor
  · rw [div_two_zpow_add, le_div_iff₀ positive, shifted]
    exact enough.trans least
  · rw [div_two_zpow_add, div_lt_iff₀ positive, pow_succ, mul_right_comm, shifted]
    exact most.trans_le few

theorem exists_roundWithAccuracy
    (describes : Describes (.ofMantissaAndAccuracy mantissa accuracy) (exact / 2 ^ exponent))
    (long : 52 ≤ mantissa.log2) (moderate : IsModerate exact) :
    ∃ digits unit positive, roundWithAccuracy .binary64 .positive mantissa exponent accuracy =
        .finite .positive digits unit positive ∧
      2 ^ 52 ≤ digits ∧ digits < 2 ^ 53 ∧ -1074 ≤ unit ∧ unit ≤ 971 ∧
        IsRounded exact (digits * 2 ^ unit) := by
  have isUnit := isUnitOf_of_describes describes long
  have unitBounds := moderate.unit_bounds isUnit
  have nearest := (describes.shiftRight (mantissa.log2 - 52)).isNearest
  rw [← div_two_zpow_add] at nearest
  rw [roundWithAccuracy, shiftToTargetExponent_eq long (by omega)]
  dsimp only
  generalize (ExtendedMantissa.ofMantissaAndAccuracy mantissa accuracy >>>
    (mantissa.log2 - 52)).roundedMantissa = digits at nearest ⊢
  generalize exponent + (mantissa.log2 - 52 : ℕ) = unit at nearest isUnit unitBounds ⊢
  have enough : 2 ^ 52 ≤ digits := nearest.least_le (by exact_mod_cast isUnit.enough)
  have few : digits ≤ 2 ^ 53 := nearest.le_most (by exact_mod_cast isUnit.few.le)
  have rounded : IsRounded exact (digits * 2 ^ unit) := ⟨unit, digits, isUnit, nearest, rfl⟩
  rcases few.lt_or_eq with fits | rfl
  · have log : digits.log2 = 52 := (Nat.log2_eq_iff (by omega)).mpr ⟨enough, fits⟩
    rw [shiftToTargetExponent_eq log.ge (by omega), log, Nat.sub_self, Nat.cast_zero, add_zero]
    exact ⟨digits, unit, by omega, dif_neg (show digits ≠ 0 by omega), enough, fits, by omega,
      by omega, rounded⟩
  · -- Rounding up has carried into a 54th digit, so everything is shifted once more.
    have log : (2 ^ 53 : ℕ).log2 = 53 := Nat.log2_two_pow
    have shifted : ExtendedMantissa.ofMantissaAndAccuracy (2 ^ 53) .exact >>> (53 - 52) =
        ⟨2 ^ 52, false, false⟩ := rfl
    rw [shiftToTargetExponent_eq (log ▸ by decide) (by omega), log, shifted]
    refine ⟨2 ^ 52, unit + 1, by decide, dif_neg (show (2 ^ 52 : ℕ) ≠ 0 by decide), le_rfl,
      by decide, by omega, by omega, ?_⟩
    convert rounded using 1
    rw [zpow_add_one₀ two_ne_zero]
    push_cast
    ring

end Round

end DocAudit.Decimal
