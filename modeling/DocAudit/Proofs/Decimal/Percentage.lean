import DocAudit.Proofs.Decimal.FloatValues

/-!
Shares in percent. A quotient is rounded and so is the product with one hundred, which moves a share
by less than shares of that many things differ. Only where a share is the bound that it is compared
with do the roundings decide.
-/

namespace DocAudit.Decimal

/-- The share that `covered` of `total` things are, in percent. -/
def percentage (covered total : ℕ) : Float :=
  Float.ofNat covered / Float.ofNat total * 100

/-- What a share in percent is rounded to, first the quotient and then the product. -/
def IsRoundedPercentage (share value : ℚ) : Prop :=
  ∃ quotient, IsRounded share quotient ∧ IsRounded (quotient * 100) value

namespace IsRoundedPercentage

variable {share value other : ℚ}

theorem unique (rounded : IsRoundedPercentage share value)
    (rounded' : IsRoundedPercentage share other) : value = other := by
  obtain ⟨quotient, isQuotient, isProduct⟩ := rounded
  obtain ⟨quotient', isQuotient', isProduct'⟩ := rounded'
  obtain rfl := isQuotient.unique isQuotient'
  exact isProduct.unique isProduct'

theorem error (rounded : IsRoundedPercentage share value) (most : share ≤ 1) :
    |value - share * 100| < 1 / 2 ^ 45 := by
  obtain ⟨quotient, isQuotient, isProduct⟩ := rounded
  have error := abs_le.mp isQuotient.error
  have error' := abs_le.mp isProduct.error
  rw [abs_lt]
  constructor <;> linarith

end IsRoundedPercentage

variable {covered total bound : ℕ}

theorem exists_represents_percentage (some : 0 < covered) (part : covered ≤ total)
    (few : total ≤ 2 ^ 45) :
    ∃ value, IsRoundedPercentage (covered / total) value ∧
      Represents (percentage covered total) value := by
  have isTotal : (0 : ℚ) < total := by exact_mod_cast some.trans_le part
  have least : (1 / 2 ^ 45 : ℚ) ≤ covered / total := by
    rw [div_le_div_iff₀ (by positivity) isTotal]
    exact_mod_cast (by omega)
  have most : (covered / total : ℚ) ≤ 1 := by
    rw [div_le_one isTotal]
    exact_mod_cast part
  obtain ⟨quotient, isQuotient, represents⟩ :=
    (Represents.ofNat some (by omega)).div (.ofNat (some.trans_le part) (by omega))
      ⟨least.trans' (by norm_num), most.trans (by norm_num)⟩
  have error := abs_le.mp isQuotient.error
  have least' : (1 / 2 ^ 45 : ℚ) ≤ quotient * (100 : ℕ) := by
    push_cast
    linarith
  have most' : quotient * (100 : ℕ) ≤ 200 := by
    push_cast
    linarith
  obtain ⟨product, isProduct, represents⟩ :=
    represents.mul (.ofNat (by decide) (by decide) : Represents (Float.ofNat 100) (100 : ℕ))
      ⟨least'.trans' (by norm_num), most'.trans (by norm_num)⟩
  exact ⟨product, ⟨quotient, isQuotient, isProduct⟩, represents⟩

theorem percentage_zero (some : 0 < total) (few : total ≤ 2 ^ 45) :
    percentage 0 total = Float.ofNat 0 := by
  rw [percentage, ofNat_zero_div (.ofNat some (by omega))]
  decide +kernel

/-! ## Bounds that are met -/

variable {shift carry : ℕ}

/-- The digits of a hundredth of a bound, in a unit of `2 ^ (-shift)`. -/
def hundredthDigits (bound shift : ℕ) : ℕ :=
  roundDiv (bound * 2 ^ shift) 100

/-- The digits of one hundred times that, in a unit that is larger by `2 ^ carry`. -/
def percentDigits (bound shift carry : ℕ) : ℕ :=
  roundDiv (hundredthDigits bound shift * 100) (2 ^ carry)

/-- In these units there are 53 digits of either. -/
def Measures (bound shift carry : ℕ) : Prop :=
  (2 ^ 52 * 100 ≤ bound * 2 ^ shift ∧ bound * 2 ^ shift < 2 ^ 53 * 100) ∧
    2 ^ 52 * 2 ^ carry ≤ hundredthDigits bound shift * 100 ∧
      hundredthDigits bound shift * 100 < 2 ^ 53 * 2 ^ carry

instance : Decidable (Measures bound shift carry) :=
  inferInstanceAs (Decidable (_ ∧ _))

theorem Measures.isRoundedPercentage (measures : Measures bound shift carry) :
    IsRoundedPercentage (bound / (100 : ℕ))
      (percentDigits bound shift carry * 2 ^ (carry - shift : ℤ)) := by
  obtain ⟨⟨enough, few⟩, enough', few'⟩ := measures
  refine ⟨hundredthDigits bound shift * 2 ^ (-shift : ℤ), .of_ratio ?_ enough few,
    .of_ratio ?_ enough' few'⟩
  · rw [zpow_neg, zpow_natCast, div_inv_eq_mul]
    push_cast
    ring
  · rw [sub_eq_add_neg, zpow_add₀ two_ne_zero, zpow_natCast, mul_right_comm,
      mul_div_mul_right _ _ (two_zpow_pos _).ne']
    push_cast
    rfl

/-- The bounds that a share of just this size is found to lie below. -/
def missedBounds : List ℤ := [29, 57, 58]

theorem exists_measures : ∀ bound < 101, 0 < bound → ∃ shift ∈ List.range' 52 8, ∃ carry ∈ [6, 7],
    Measures bound shift carry ∧
      (percentDigits bound shift carry * 2 ^ carry < bound * 2 ^ shift ↔
        (bound : ℤ) ∈ missedBounds) := by
  decide +kernel

theorem IsRoundedPercentage.lt_bound_iff {value : ℚ} (some : 0 < bound) (bounded : bound ≤ 100)
    (rounded : IsRoundedPercentage (bound / (100 : ℕ)) value) :
    value < bound ↔ (bound : ℤ) ∈ missedBounds := by
  obtain ⟨shift, -, carry, -, measures, below⟩ := exists_measures bound (by omega) some
  rw [rounded.unique measures.isRoundedPercentage, ← below, zpow_sub₀ two_ne_zero, zpow_natCast,
    zpow_natCast, ← mul_div_assoc, div_lt_iff₀ (pow_pos two_pos _)]
  exact_mod_cast Iff.rfl

/-! ## Shares and bounds -/

/-- Whether a share lies below a bound can be told by natural numbers, apart from shares that are
the bound. -/
theorem lessThanInt_percentage_iff (some : 0 < total) (part : covered ≤ total)
    (few : total ≤ 2 ^ 45) (bounded : bound ≤ 100) :
    lessThanInt (percentage covered total) bound = true ↔
      100 * covered < bound * total ∨
        100 * covered = bound * total ∧ (bound : ℤ) ∈ missedBounds := by
  rcases Nat.eq_zero_or_pos covered with rfl | any
  · have notMissed : ((0 : ℕ) : ℤ) ∉ missedBounds := by decide
    rw [percentage_zero some few, lessThanInt_ofNat_zero, Nat.cast_pos, mul_zero,
      Nat.mul_pos_iff_of_pos_right some]
    refine (or_iff_left ?_).symm
    rintro ⟨none, missed⟩
    rcases Nat.mul_eq_zero.mp none.symm with rfl | rfl
    · exact notMissed missed
    · exact some.false
  obtain ⟨value, rounded, represents⟩ := exists_represents_percentage any part few
  have isTotal : (0 : ℚ) < total := by exact_mod_cast some
  have least : (1 / 2 ^ 45 : ℚ) ≤ 1 / total :=
    one_div_le_one_div_of_le isTotal (by exact_mod_cast few)
  have error := abs_lt.mp (rounded.error ((div_le_one isTotal).mpr (by exact_mod_cast part)))
  rw [represents.lessThanInt_iff, Int.cast_natCast]
  -- A share that is not the bound differs from it by more than the two roundings can.
  rcases lt_trichotomy (100 * covered) (bound * total) with below | same | above
  · refine iff_of_true ?_ (.inl below)
    have differ : (covered / total * 100 + 1 / total : ℚ) ≤ bound := by
      rw [div_mul_eq_mul_div, ← add_div, div_le_iff₀ isTotal]
      exact_mod_cast (by omega)
    linarith
  · have positive : 0 < bound := Nat.pos_of_mul_pos_right (by omega : 0 < bound * total)
    have share : (covered / total : ℚ) = bound / (100 : ℕ) := by
      rw [div_eq_div_iff isTotal.ne' (by norm_num)]
      exact_mod_cast (by omega)
    rw [share] at rounded
    rw [rounded.lt_bound_iff positive bounded, same]
    simp
  · refine iff_of_false ?_ (by omega)
    have differ : (bound + 1 / total : ℚ) ≤ covered / total * 100 := by
      rw [div_mul_eq_mul_div, add_div' _ _ _ isTotal.ne', div_le_div_iff_of_pos_right isTotal]
      exact_mod_cast (by omega)
    linarith

end DocAudit.Decimal
