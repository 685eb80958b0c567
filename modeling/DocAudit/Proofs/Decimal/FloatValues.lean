import DocAudit.Proofs.Decimal.ModelRounding

/-!
Values of floating-point numbers. A positive number that is stored with all its 53 digits has a
value, products and quotients have the rounded values, and natural numbers of no more than 53 digits
have their own.
-/

namespace DocAudit.Decimal

open Float.Model UnpackedFloat

theorem Binary.ofBits_eq {bits : UInt64} {field fraction : ℕ}
    (word : bits.toNat = field * 2 ^ 52 + fraction) (few : fraction < 2 ^ 52) (low : 0 < field)
    (high : field < 2047) : ofBits bits = .finite false (fraction + 2 ^ 52) (field - 1075) := by
  have sign : ¬Nat.pow 2 63 ≤ bits.toNat := by
    rw [Nat.pow_eq]
    omega
  have stored : bits.toNat / hiddenBit % Nat.pow 2 11 = field := by
    rw [hiddenBit, Nat.pow_eq, Nat.pow_eq]
    omega
  have rest : bits.toNat % hiddenBit = fraction := by
    rw [hiddenBit, Nat.pow_eq]
    omega
  rw [ofBits, stored, rest, if_neg (show ¬field = Nat.pow 2 11 - 1 from high.ne), if_neg low.ne',
    hiddenBit, leastExponent]
  congr 1
  · exact decide_eq_false sign
  · omega

/-! ## Stored numbers -/

/-- Digits and a unit that the format stores with its hidden bit. -/
structure IsNormal (digits : ℕ) (unit : ℤ) : Prop where
  enough : 2 ^ 52 ≤ digits
  few : digits < 2 ^ 53
  low : -1074 ≤ unit
  high : unit ≤ 971

namespace IsNormal

variable {digits digits' : ℕ} {unit unit' : ℤ}

theorem positive (normal : IsNormal digits unit) : 0 < digits :=
  (Nat.two_pow_pos 52).trans_le normal.enough

theorem log2_eq (normal : IsNormal digits unit) : digits.log2 = 52 :=
  (Nat.log2_eq_iff normal.positive.ne').mpr ⟨normal.enough, normal.few⟩

/-- The number with these digits in this unit. -/
def number (normal : IsNormal digits unit) : Float :=
  .ofModel (.pack (.finite .positive digits unit normal.positive))

/-- The field in which the format stores the unit. -/
theorem exists_field (normal : IsNormal digits unit) :
    ∃ field : ℕ, unit = field - 1075 ∧ 0 < field ∧ field < 2047 :=
  ⟨(unit + 1075).toNat, by have := normal.low; have := normal.high; omega⟩

theorem pack_eq (normal : IsNormal digits unit) {field : ℕ} (isField : unit = field - 1075) :
    UnpackedFloat.pack .binary64 (.finite .positive digits unit normal.positive) =
      packComponents .binary64 .positive (.ofNat 11 field) (.ofNat 52 digits) := by
  have high := normal.high
  have biased : (unit + (1023 : ℕ) + (52 : ℕ)).toNat = field := by omega
  have fits : ¬2 ^ 11 ≤ (unit + (1023 : ℕ) + (52 : ℕ)).toNat + 1 := by omega
  have hidden : digits.log2 + 1 = Format.binary64.mantissaBits := by
    rw [normal.log2_eq]
    rfl
  rw [UnpackedFloat.pack]
  refine (if_neg fits).trans ((if_pos hidden).trans ?_)
  rw [← biased]
  rfl

theorem toNat_packComponents (exponent : BitVec 11) (mantissa : BitVec 52) :
    (packComponents .binary64 .positive exponent mantissa).toNat =
      exponent.toNat * 2 ^ 52 + mantissa.toNat := by
  change (0#1 ++ exponent ++ mantissa).toNat = _
  rw [BitVec.toNat_append, ← Nat.shiftLeft_add_eq_or_of_lt mantissa.isLt, Nat.shiftLeft_eq,
    BitVec.toNat_append, BitVec.toNat_zero, Nat.zero_shiftLeft, Nat.zero_or]

theorem unpackSign_packComponents (exponent : BitVec 11) (mantissa : BitVec 52) :
    unpackSign (packComponents .binary64 .positive exponent mantissa) = 0#1 := by
  have bits := toNat_packComponents exponent mantissa
  have exponentLess := exponent.isLt
  have mantissaLess := mantissa.isLt
  rw [unpackSign, BitVec.toNat_eq, BitVec.toNat_cast, BitVec.extractLsb_toNat, bits,
    Nat.shiftRight_eq_div_pow]
  change _ / 2 ^ 63 % 2 = 0
  omega

theorem toNat_append_hidden (enough : 2 ^ 52 ≤ digits) (few : digits < 2 ^ 53) :
    (1#1 ++ BitVec.ofNat 52 digits).toNat = digits := by
  rw [BitVec.toNat_append, ← Nat.shiftLeft_add_eq_or_of_lt (BitVec.isLt _), BitVec.toNat_ofNat]
  simp [Nat.shiftLeft_eq]
  omega

theorem unpack_number (normal : IsNormal digits unit) :
    normal.number.toModel.unpack = .finite .positive digits unit normal.positive := by
  obtain ⟨field, isField, low, high⟩ := normal.exists_field
  have small : field < 2 ^ 11 := by omega
  have notLeast : BitVec.ofNat 11 field ≠ 0#11 := by
    rw [Ne, BitVec.toNat_eq, BitVec.toNat_ofNat, Nat.mod_eq_of_lt small]
    exact low.ne'
  have notMost : BitVec.ofNat 11 field ≠ -1#11 := by
    rw [Ne, BitVec.toNat_eq, BitVec.toNat_ofNat, Nat.mod_eq_of_lt small]
    exact high.ne
  change UnpackedFloat.unpack .binary64 (UnpackedFloat.pack .binary64 _) = _
  rw [normal.pack_eq isField, UnpackedFloat.unpack]
  simp only [unpackExponent_packComponents, unpackMantissa_packComponents,
    unpackSign_packComponents]
  rw [if_neg notMost, if_neg notLeast]
  simp only [toNat_append_hidden normal.enough normal.few]
  congr 1
  rw [BitVec.toNat_ofNat, Nat.mod_eq_of_lt small]
  change (field : ℤ) - ((1023 : ℕ) + (52 : ℕ)) = unit
  omega

theorem ofFloat_number (normal : IsNormal digits unit) :
    Binary.ofFloat normal.number = .finite false digits unit := by
  obtain ⟨field, isField, low, high⟩ := normal.exists_field
  have enough := normal.enough
  have few := normal.few
  have word : normal.number.toBits.toNat = field * 2 ^ 52 + (digits - 2 ^ 52) := by
    change (UnpackedFloat.pack .binary64 _).toNat = _
    rw [normal.pack_eq isField, toNat_packComponents, BitVec.toNat_ofNat, BitVec.toNat_ofNat]
    omega
  have read := Binary.ofBits_eq word (by omega) low high
  rwa [Nat.sub_add_cancel enough, ← isField] at read

theorem number_mul_number (normal : IsNormal digits unit) (normal' : IsNormal digits' unit') :
    normal.number * normal'.number = .ofModel (.pack
      (roundWithAccuracy .binary64 .positive (digits * digits') (unit + unit') .exact)) := by
  change Float.ofModel (.pack (UnpackedFloat.mul .binary64 normal.number.toModel.unpack
    normal'.number.toModel.unpack)) = _
  rw [normal.unpack_number, normal'.unpack_number]
  rfl

/-- A quotient is worked out to 53 digits or one more. -/
theorem number_div_number (normal : IsNormal digits unit) (normal' : IsNormal digits' unit')
    (low : -1021 ≤ unit - unit') :
    normal.number / normal'.number = .ofModel (.pack
      (roundWithAccuracy .binary64 .positive (digits * 2 ^ 53 / digits') (unit - unit' - 53)
        (accuracyOfFraction (digits * 2 ^ 53 % digits') digits'))) := by
  have target : min (unit - unit') (Format.binary64.targetExponent
      (totalExponent digits unit - totalExponent digits' unit')) = unit - unit' - 53 := by
    simp only [totalExponent, normal.log2_eq, normal'.log2_eq, Format.targetExponent,
      Format.mantissaBits, Format.minExponent]
    omega
  have core : divCore .binary64 digits unit digits' unit' =
      (digits * 2 ^ 53 / digits', unit - unit' - 53,
        accuracyOfFraction (digits * 2 ^ 53 % digits') digits') := by
    simp only [divCore, target, sub_sub_cancel, Nat.shiftLeft_eq]
    rfl
  change Float.ofModel (.pack (UnpackedFloat.div .binary64 normal.number.toModel.unpack
    normal'.number.toModel.unpack)) = _
  rw [normal.unpack_number, normal'.unpack_number, UnpackedFloat.div, core]
  rfl

theorem le_log2_mul (normal : IsNormal digits unit) (normal' : IsNormal digits' unit') :
    52 ≤ (digits * digits').log2 := by
  rw [Nat.le_log2 (Nat.mul_pos normal.positive normal'.positive).ne']
  exact normal.enough.trans (Nat.le_mul_of_pos_right _ normal'.positive)

theorem le_log2_div (normal : IsNormal digits unit) (normal' : IsNormal digits' unit') :
    52 ≤ (digits * 2 ^ 53 / digits').log2 := by
  have quotient : 2 ^ 52 ≤ digits * 2 ^ 53 / digits' :=
    (Nat.le_div_iff_mul_le normal'.positive).mpr (Nat.mul_le_mul normal.enough normal'.few.le)
  exact (Nat.le_log2 (by omega)).mpr quotient

theorem div_lt_two (normal : IsNormal digits unit) (normal' : IsNormal digits' unit') :
    (digits / digits' : ℚ) < 2 := by
  have few := normal.few
  have enough := normal'.enough
  rw [div_lt_iff₀ (by exact_mod_cast normal'.positive)]
  exact_mod_cast (by omega : digits < 2 * digits')

end IsNormal

/-! ## Arithmetic -/

/-- A stored number together with its value. -/
def Represents (number : Float) (value : ℚ) : Prop :=
  ∃ digits unit, ∃ normal : IsNormal digits unit,
    number = normal.number ∧ value = digits * 2 ^ unit

theorem IsModerate.natCast {number : ℕ} (positive : 0 < number) (few : number < 2 ^ 53) :
    IsModerate number where
  least := by
    have : (1 : ℚ) ≤ number := by exact_mod_cast positive
    refine le_trans ?_ this
    norm_num
  most := by
    have : (number : ℚ) ≤ 2 ^ 53 := by exact_mod_cast few.le
    refine this.trans ?_
    norm_num

section Operations

variable {left right : Float} {value value' exact : ℚ} {mantissa : ℕ} {exponent : ℤ}
  {accuracy : Accuracy}

theorem exists_represents
    (describes : Describes (.ofMantissaAndAccuracy mantissa accuracy) (exact / 2 ^ exponent))
    (long : 52 ≤ mantissa.log2) (moderate : IsModerate exact) :
    ∃ value, IsRounded exact value ∧
      Represents (.ofModel (.pack
        (roundWithAccuracy .binary64 .positive mantissa exponent accuracy))) value := by
  obtain ⟨digits, unit, positive, isRound, enough, few, low, high, rounded⟩ :=
    exists_roundWithAccuracy describes long moderate
  refine ⟨_, rounded, digits, unit, ⟨enough, few, low, high⟩, ?_, rfl⟩
  rw [isRound]
  rfl

theorem represents_toFloat {number : ℕ} (positive : 0 < number) (few : number < 2 ^ 53) :
    Represents number.toUInt64.toFloat number := by
  -- The number is written with 53 digits before it is rounded, so nothing is left to cut off.
  have log : number.log2 < 53 := (Nat.log2_lt positive.ne').mpr few
  have same : number.toUInt64.toNat = number := UInt64.toNat_ofNat_of_lt (few.trans (by decide))
  have scaled := two_pow_le_scaled positive few
  have exactly := natCast_div_two_zpow_neg number (52 - number.log2)
  generalize isShift : 52 - number.log2 = shift at scaled exactly
  have target : Format.binary64.targetExponent (totalExponent number 0) = -shift := by
    simp only [totalExponent, Format.targetExponent, Format.mantissaBits, Format.minExponent]
    omega
  have decreased : decreaseExponent number 0 (-shift) = (number * 2 ^ shift, -(shift : ℤ)) := by
    simp [decreaseExponent, Nat.shiftLeft_eq]
  obtain ⟨value, rounded, represents⟩ := exists_represents
    (exactly ▸ describes_exact (number * 2 ^ shift)) ((Nat.le_log2 (by omega)).mpr scaled)
    (.natCast positive few)
  obtain rfl : value = number := rounded.unique (.natCast positive few)
  convert represents using 1
  change Float.ofModel
    (.pack (UnpackedFloat.normalize .binary64 (number.toUInt64.toNat : ℤ) 0 .positive)) = _
  rw [same, UnpackedFloat.normalize, compare_gt_iff_gt.mpr (by exact_mod_cast positive)]
  dsimp only
  rw [Int.toNat_natCast, UnpackedFloat.round, target, decreased]

namespace Represents

theorem mul (represents : Represents left value) (represents' : Represents right value')
    (moderate : IsModerate (value * value')) :
    ∃ product, IsRounded (value * value') product ∧ Represents (left * right) product := by
  obtain ⟨digits, unit, normal, rfl, rfl⟩ := represents
  obtain ⟨digits', unit', normal', rfl, rfl⟩ := represents'
  have exactly : (digits * 2 ^ unit * (digits' * 2 ^ unit') : ℚ) / 2 ^ (unit + unit') =
      (digits * digits' : ℕ) := by
    rw [mul_mul_mul_comm, ← zpow_add₀ two_ne_zero, mul_div_cancel_right₀ _ (two_zpow_pos _).ne',
      Nat.cast_mul]
  rw [normal.number_mul_number]
  exact exists_represents (exactly ▸ describes_exact (digits * digits'))
    (normal.le_log2_mul normal') moderate

theorem div (represents : Represents left value) (represents' : Represents right value')
    (moderate : IsModerate (value / value')) :
    ∃ quotient, IsRounded (value / value') quotient ∧ Represents (left / right) quotient := by
  obtain ⟨digits, unit, normal, rfl, rfl⟩ := represents
  obtain ⟨digits', unit', normal', rfl, rfl⟩ := represents'
  have ratio : (digits * 2 ^ unit / (digits' * 2 ^ unit') : ℚ) =
      digits / digits' * 2 ^ (unit - unit') := by
    rw [mul_div_mul_comm, zpow_sub₀ two_ne_zero]
  have above : (2 : ℚ) ^ (-200 : ℤ) < 2 ^ (1 + (unit - unit')) := by
    rw [zpow_one_add₀ two_ne_zero]
    exact moderate.least.trans_lt
      (ratio ▸ mul_lt_mul_of_pos_right (normal.div_lt_two normal') (two_zpow_pos _))
  have low := (zpow_lt_zpow_iff_right₀ one_lt_two).mp above
  have shifted : (2 : ℚ) ^ (unit - unit') = 2 ^ (unit - unit' - 53) * 2 ^ 53 := by
    rw [← zpow_natCast, ← zpow_add₀ two_ne_zero]
    simp
  have exactly : (digits * 2 ^ unit / (digits' * 2 ^ unit') : ℚ) / 2 ^ (unit - unit' - 53) =
      (digits * 2 ^ 53 : ℕ) / digits' := by
    rw [ratio, shifted, mul_left_comm, mul_div_cancel_left₀ _ (two_zpow_pos _).ne',
      div_mul_eq_mul_div, Nat.cast_mul, Nat.cast_pow, Nat.cast_ofNat]
  rw [normal.number_div_number normal' (by omega)]
  exact exists_represents (exactly ▸ describes_quotient (digits * 2 ^ 53) normal'.positive)
    (normal.le_log2_div normal') moderate

theorem one : Represents (Float.ofBits 0x3FF0000000000000) 1 :=
  ⟨2 ^ 52, -52, ⟨by decide, by decide, by decide, by decide⟩, rfl, by norm_num⟩

theorem lessThanInt_iff (represents : Represents left value) (bound : ℤ) :
    lessThanInt left bound = true ↔ value < bound := by
  obtain ⟨digits, unit, normal, rfl, rfl⟩ := represents
  have scaled : (2 : ℚ) ^ unit = 2 ^ unit.toNat / 2 ^ (-unit).toNat := by
    rw [← zpow_natCast, ← zpow_natCast, ← zpow_sub₀ two_ne_zero]
    congr 1
    omega
  rw [lessThanInt, normal.ofFloat_number]
  simp only [ratio, Nat.pow_eq, Int.toNat_zero, neg_zero, pow_zero, mul_one, Bool.false_eq_true,
    if_false, decide_eq_true_eq]
  rw [scaled, ← mul_div_assoc, div_lt_iff₀ (pow_pos two_pos _)]
  exact_mod_cast Iff.rfl

theorem isInf_eq_false (represents : Represents left value) : left.isInf = false := by
  obtain ⟨digits, unit, normal, rfl, -⟩ := represents
  change normal.number.toModel.unpack.isInf = false
  rw [normal.unpack_number]
  rfl

theorem ofNat {number : ℕ} (positive : 0 < number) (few : number < 2 ^ 53) :
    Represents (Float.ofNat number) number := by
  -- A natural number is read as a decimal number without a power of ten, which stands there as one.
  obtain ⟨product, rounded, represents⟩ := (represents_toFloat positive few).mul one
    (by rw [mul_one]; exact .natCast positive few)
  rw [mul_one] at rounded
  obtain rfl : product = number := rounded.unique (.natCast positive few)
  convert represents using 1
  rw [Float.ofNat]
  exact dif_pos ⟨few, by decide⟩

end Represents

theorem isInf_ofInt {number : ℕ} (few : number < 2 ^ 53) : (Float.ofInt number).isInf = false := by
  change (Float.ofNat number).isInf = false
  rcases Nat.eq_zero_or_pos number with rfl | positive
  · decide +kernel
  · exact (Represents.ofNat positive few).isInf_eq_false

/-! ## Zero -/

theorem ofNat_zero_div (represents : Represents right value) :
    Float.ofNat 0 / right = Float.ofNat 0 := by
  obtain ⟨digits, unit, normal, rfl, -⟩ := represents
  have isZero : (Float.ofNat 0).toModel.unpack = .zero .positive := rfl
  change Float.ofModel (.pack (UnpackedFloat.div .binary64 (Float.ofNat 0).toModel.unpack
    normal.number.toModel.unpack)) = _
  rw [normal.unpack_number, isZero]
  rfl

theorem lessThanInt_ofNat_zero (bound : ℤ) :
    lessThanInt (Float.ofNat 0) bound = true ↔ 0 < bound := by
  have isZero : Binary.ofFloat (Float.ofNat 0) = .finite false 0 Binary.leastExponent := by
    decide +kernel
  rw [lessThanInt, isZero]
  generalize Binary.leastExponent = unit
  simp [ratio]

end Operations

end DocAudit.Decimal
