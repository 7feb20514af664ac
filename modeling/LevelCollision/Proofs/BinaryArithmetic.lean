import LevelCollision.Proofs.BinaryRounding

namespace LevelCollision

/-!
# Arithmetic of binary scalars

Sums, differences and products of binary values that denote rational numbers denote what
the exact results are rounded to, as long as they are not packed.
-/

open Float.Model (Format UnpackedFloat)
open Float.Model.UnpackedFloat
  (Sign decreaseExponent roundWithAccuracy)

namespace Binary

/-- A binary value that denotes what an exact result is rounded to. -/
def Computes
    (value : UnpackedFloat)
    (exact : Rat) : Prop :=
  ∃ result, Denotes value result ∧ Rounds exact result

section Scalars

variable {value : UnpackedFloat} {exact : Rat}

/-- What a binary value denotes is a scalar. -/
theorem Denotes.fits
    (denotes : Denotes value exact) :
    Fits exact := by
  cases denotes with
  | zero sign =>
      exact ⟨0, 0, by norm_num, by norm_num, by norm_num⟩
  | @finite sign mantissa exponent positive canonical =>
      refine
        ⟨sign.apply mantissa, exponent, ?_, canonical.notTooLow, rfl⟩
      have short : (mantissa : Int) ≤ 2 ^ 24 := by
        exact_mod_cast canonical.short.le
      cases sign with
      | positive =>
          rw [Sign.apply, Nat.abs_cast]
          exact short
      | negative =>
          rw [Sign.apply, abs_neg, Nat.abs_cast]
          exact short

/-- Between one and the next scalar there is no other. -/
theorem Fits.le_one
    (fits : Fits exact)
    (near : exact < 1 + 1 / 2 ^ 24) :
    exact ≤ 1 := by
  obtain ⟨count, exponent, short, _, rfl⟩ := fits
  rcases le_or_gt count 0 with isNegative | isPositive
  · have countNegative : (count : Rat) ≤ 0 := by
      exact_mod_cast isNegative
    exact
      le_trans
        (mul_nonpos_of_nonpos_of_nonneg countNegative
          (zpow_pos two_pos exponent).le)
        zero_le_one
  · rcases le_or_gt (-23) exponent with isHigher | isLower
    · obtain ⟨multiple, isMultiple⟩ := exists_multiple isPositive.le isHigher
      have unit : (2 : Rat) ^ (-23 : Int) = 1 / 2 ^ 23 := by
        norm_num
      rw [isMultiple, unit] at near ⊢
      have few : multiple < 2 ^ 23 + 1 := by
        by_contra many
        have atLeast : (2 ^ 23 + 1 : Rat) ≤ multiple := by
          exact_mod_cast not_lt.mp many
        linarith
      have atMost : (multiple : Rat) ≤ 2 ^ 23 := by
        exact_mod_cast Nat.le_of_lt_succ few
      linarith
    · refine le_trans (le_full_of_lower short isLower) ?_
      norm_num

/-- A scalar is rounded to itself. -/
theorem Fits.rounds
    (fits : Fits exact) :
    Rounds exact exact where
  atLeast _ _ atMost := atMost
  atMost _ _ atLeast := atLeast
  atMostOne := fits.le_one

/-- A value computes what it denotes. -/
theorem Denotes.computes
    (denotes : Denotes value exact) :
    Computes value exact :=
  ⟨exact, denotes, denotes.fits.rounds⟩

end Scalars

section Rounding

variable {mantissa : Nat} {exponent : Int}

theorem computes_roundWithAccuracy
    (sign : Sign)
    (positive : 0 < mantissa)
    (enough : exponent ≤ target mantissa exponent) :
    Computes (roundWithAccuracy .binary32 sign mantissa exponent .exact)
      (sign.apply mantissa * 2 ^ exponent) := by
  refine ⟨_, denotes_roundWithAccuracy sign positive enough, ?_⟩
  have rounds := rounds_rounded positive enough
  cases sign with
  | positive =>
      exact rounds
  | negative =>
      have nonneg :
          (0 : Rat) ≤
            rounded mantissa exponent * 2 ^ target mantissa exponent :=
        mul_nonneg (Nat.cast_nonneg _) (zpow_pos two_pos _).le
      have negated := rounds.neg nonneg
      simp only [Sign.apply, Int.cast_neg, neg_mul, Int.cast_natCast]
      exact negated

/-- A lower exponent is made up for by a longer mantissa. -/
theorem shiftLeft_value
    (mantissa : Nat)
    (exponent : Int)
    (shift : Nat) :
    ((mantissa <<< shift : Nat) : Rat) * 2 ^ (exponent - shift) =
      mantissa * 2 ^ exponent := by
  rw [Nat.shiftLeft_eq, zpow_sub₀ two_ne_zero, zpow_natCast]
  push_cast
  rw [mul_assoc, ← mul_div_assoc,
    mul_div_cancel_left₀ _ (pow_ne_zero shift two_ne_zero)]

/-- Two mantissas are brought to the same exponent. -/
theorem decreaseExponent_value
    {lower : Int}
    (mantissa : Nat)
    (isLower : lower ≤ exponent) :
    ((decreaseExponent mantissa exponent lower).1 : Rat) * 2 ^ lower =
      mantissa * 2 ^ exponent := by
  have shifts := shiftLeft_value mantissa exponent (exponent - lower).toNat
  rw [Int.toNat_of_nonneg (sub_nonneg.mpr isLower), sub_sub_cancel] at shifts
  exact shifts

/-- The longer mantissa is cut to where the shorter one would have been. -/
theorem target_shiftLeft
    (positive : 0 < mantissa)
    (shift : Nat) :
    target (mantissa <<< shift) (exponent - shift) =
      target mantissa exponent := by
  have notZero := Nat.pos_iff_ne_zero.mp positive
  have least := Nat.log2_self_le notZero
  have most : mantissa < 2 ^ (mantissa.log2 + 1) := Nat.lt_log2_self
  have power := Nat.two_pow_pos shift
  have bits : (mantissa <<< shift).log2 = mantissa.log2 + shift := by
    rw [Nat.shiftLeft_eq]
    refine (Nat.log2_eq_iff (Nat.mul_pos positive power).ne').mpr ⟨?_, ?_⟩
    · rw [Nat.pow_add]
      exact Nat.mul_le_mul_right _ least
    · rw [Nat.add_right_comm, Nat.pow_add]
      exact Nat.mul_lt_mul_of_pos_right most power
  unfold target
  rw [bits]
  omega

/-- A mantissa is rounded whatever its exponent. -/
theorem computes_round
    (sign : Sign)
    (positive : 0 < mantissa)
    (exponent : Int) :
    Computes (UnpackedFloat.round .binary32 sign mantissa exponent)
      (sign.apply mantissa * 2 ^ exponent) := by
  let shift := (exponent - target mantissa exponent).toNat
  have lowered :
      UnpackedFloat.round .binary32 sign mantissa exponent =
        roundWithAccuracy .binary32 sign (mantissa <<< shift)
          (exponent - shift) .exact :=
    rfl
  have shiftedPositive : 0 < mantissa <<< shift := by
    rw [Nat.shiftLeft_eq]
    exact Nat.mul_pos positive (Nat.two_pow_pos shift)
  have enough :
      exponent - shift ≤ target (mantissa <<< shift) (exponent - shift) := by
    rw [target_shiftLeft positive]
    omega
  have sameValue :
      (sign.apply (mantissa <<< shift : Nat) : Rat) *
          2 ^ (exponent - (shift : Int)) =
        sign.apply mantissa * 2 ^ exponent := by
    have shifts := shiftLeft_value mantissa exponent shift
    cases sign with
    | positive =>
        exact_mod_cast shifts
    | negative =>
        simp only [Sign.apply, Int.cast_neg, neg_mul, Int.cast_natCast]
        rw [shifts]
  rw [lowered, ← sameValue]
  exact computes_roundWithAccuracy sign shiftedPositive enough

/-- A whole number of units is rounded. -/
theorem computes_normalize
    (count exponent : Int) :
    Computes (UnpackedFloat.normalize .binary32 count exponent .positive)
      (count * 2 ^ exponent) := by
  unfold UnpackedFloat.normalize
  rcases lt_trichotomy count 0 with isNegative | rfl | isPositive
  · rw [compare_lt_iff_lt.mpr isNegative]
    obtain ⟨natural, isNatural⟩ :=
      Int.eq_ofNat_of_zero_le (neg_nonneg.mpr isNegative.le)
    have computes :=
      computes_round .negative (by omega : 0 < (-count).toNat) exponent
    have sameCount : Sign.negative.apply ((-count).toNat : Nat) = count := by
      rw [Sign.apply, isNatural, Int.toNat_natCast, ← isNatural, neg_neg]
    rw [sameCount] at computes
    exact computes
  · rw [compare_eq_iff_eq.mpr rfl, Int.cast_zero, zero_mul]
    exact (Denotes.zero .positive).computes
  · rw [compare_gt_iff_gt.mpr isPositive]
    have computes :=
      computes_round .positive (by omega : 0 < count.toNat) exponent
    have sameCount : Sign.positive.apply (count.toNat : Nat) = count :=
      Int.toNat_of_nonneg isPositive.le
    rw [sameCount] at computes
    exact computes

end Rounding

section Operations

variable {first second : UnpackedFloat} {left right : Rat}

/-- The sum of two whole numbers of units, brought to one exponent. -/
theorem denotes_apply
    {sign : Sign}
    {mantissa : Nat}
    {exponent lower : Int}
    (isLower : lower ≤ exponent) :
    (sign.apply (decreaseExponent mantissa exponent lower).1 : Rat) *
        2 ^ lower =
      sign.apply mantissa * 2 ^ exponent := by
  have shifts := decreaseExponent_value mantissa isLower
  cases sign with
  | positive =>
      exact_mod_cast shifts
  | negative =>
      simp only [Sign.apply, Int.cast_neg, neg_mul, Int.cast_natCast]
      rw [shifts]

/-- The sum of two zeros is a zero. -/
theorem exists_add_zero
    (sign other : Sign) :
    ∃ sum,
      UnpackedFloat.add .binary32 (.zero sign) (.zero other) = .zero sum := by
  cases sign <;> cases other <;> exact ⟨_, rfl⟩

theorem Denotes.add
    (denotesFirst : Denotes first left)
    (denotesSecond : Denotes second right) :
    Computes (UnpackedFloat.add .binary32 first second) (left + right) := by
  cases denotesFirst with
  | zero sign =>
      rw [zero_add]
      cases denotesSecond with
      | zero other =>
          obtain ⟨sum, isZero⟩ := exists_add_zero sign other
          rw [isZero]
          exact (Denotes.zero sum).computes
      | finite positive canonical =>
          exact (Denotes.finite positive canonical).computes
  | @finite sign mantissa exponent positive canonical =>
      cases denotesSecond with
      | zero other =>
          rw [add_zero]
          exact (Denotes.finite positive canonical).computes
      | @finite other otherMantissa otherExponent otherPositive
          otherCanonical =>
          have computes :=
            computes_normalize
              (sign.apply
                  (decreaseExponent mantissa exponent
                    (min exponent otherExponent)).1 +
                other.apply
                  (decreaseExponent otherMantissa otherExponent
                    (min exponent otherExponent)).1)
              (min exponent otherExponent)
          rw [Int.cast_add, add_mul, denotes_apply (min_le_left _ _),
            denotes_apply (min_le_right _ _)] at computes
          exact computes

theorem apply_neg
    (sign : Sign)
    (count : Int) :
    (-sign).apply count = -sign.apply count := by
  cases sign with
  | positive =>
      rfl
  | negative =>
      exact (neg_neg count).symm

theorem Denotes.neg
    (denotes : Denotes first left) :
    Denotes first.neg (-left) := by
  cases denotes with
  | zero sign =>
      rw [neg_zero]
      exact .zero (-sign)
  | @finite sign mantissa exponent positive canonical =>
      have denotes :
          Denotes (.finite (-sign) mantissa exponent positive)
            ((-sign).apply mantissa * 2 ^ exponent) :=
        .finite positive canonical
      rw [apply_neg, Int.cast_neg, neg_mul] at denotes
      exact denotes

/-- Values are subtracted as their negations are added, down to the signs of zeros. -/
theorem Denotes.sub_eq_add
    (denotesFirst : Denotes first left)
    (denotesSecond : Denotes second right) :
    UnpackedFloat.sub .binary32 first second =
      UnpackedFloat.add .binary32 first second.neg := by
  cases denotesFirst with
  | zero sign =>
      cases denotesSecond <;> rfl
  | finite positive canonical =>
      cases denotesSecond with
      | zero other =>
          rfl
      | finite otherPositive otherCanonical =>
          unfold UnpackedFloat.sub UnpackedFloat.neg UnpackedFloat.add
          dsimp only
          rw [apply_neg, Int.sub_eq_add_neg]

theorem Denotes.sub
    (denotesFirst : Denotes first left)
    (denotesSecond : Denotes second right) :
    Computes (UnpackedFloat.sub .binary32 first second) (left - right) := by
  rw [denotesFirst.sub_eq_add denotesSecond, sub_eq_add_neg]
  exact denotesFirst.add denotesSecond.neg

theorem apply_mul
    (sign other : Sign)
    (count otherCount : Int) :
    (sign * other).apply (count * otherCount) =
      sign.apply count * other.apply otherCount := by
  cases sign <;> cases other
  · exact (neg_mul_neg count otherCount).symm
  · exact (neg_mul count otherCount).symm
  · exact (mul_neg count otherCount).symm
  · rfl

/-- A product has enough bits, unless both factors have the least exponent. -/
theorem Canonical.mul_target
    {mantissa otherMantissa : Nat}
    {exponent otherExponent : Int}
    (canonical : Canonical mantissa exponent)
    (otherCanonical : Canonical otherMantissa otherExponent)
    (positive : 0 < mantissa)
    (otherPositive : 0 < otherMantissa) :
    exponent + otherExponent ≤
      target (mantissa * otherMantissa) (exponent + otherExponent) := by
  have product := Nat.mul_pos positive otherPositive
  unfold target
  rcases canonical.full with full | isLeast
  · have atLeast : 2 ^ 23 ≤ mantissa * otherMantissa :=
      le_trans full (Nat.le_mul_of_pos_right mantissa otherPositive)
    have bits := (Nat.le_log2 product.ne').mpr atLeast
    omega
  · rcases otherCanonical.full with full | otherIsLeast
    · have atLeast : 2 ^ 23 ≤ mantissa * otherMantissa :=
        le_trans full (Nat.le_mul_of_pos_left otherMantissa positive)
      have bits := (Nat.le_log2 product.ne').mpr atLeast
      omega
    · omega

theorem Denotes.mul
    (denotesFirst : Denotes first left)
    (denotesSecond : Denotes second right) :
    Computes (UnpackedFloat.mul .binary32 first second) (left * right) := by
  cases denotesFirst with
  | zero sign =>
      rw [zero_mul]
      cases denotesSecond with
      | zero other =>
          exact (Denotes.zero (sign * other)).computes
      | @finite other _ _ _ _ =>
          exact (Denotes.zero (sign * other)).computes
  | @finite sign mantissa exponent positive canonical =>
      cases denotesSecond with
      | zero other =>
          rw [mul_zero]
          exact (Denotes.zero (sign * other)).computes
      | @finite other otherMantissa otherExponent otherPositive
          otherCanonical =>
          have computes :=
            computes_roundWithAccuracy (sign * other)
              (Nat.mul_pos positive otherPositive)
              (canonical.mul_target otherCanonical positive otherPositive)
          rw [Nat.cast_mul, apply_mul, Int.cast_mul,
            zpow_add₀ two_ne_zero, mul_mul_mul_comm] at computes
          exact computes

end Operations

end Binary

end LevelCollision
