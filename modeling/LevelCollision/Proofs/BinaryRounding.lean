import Mathlib

namespace LevelCollision

/-!
# Rounding to binary scalars

A binary scalar of 32 bits is a mantissa of at most 24 bits times a power of two, whose
exponent is not below -149. An exact result is cut to such a mantissa, and the bits that
are cut off decide whether the mantissa is one more. What is needed of this is how it
compares with scalars: the rounded value lies on the same side of each of them as the
exact one did, and it is at most one if the exact one was nearer to one than to the next
scalar.
-/

open Float.Model (Format UnpackedFloat)
open Float.Model.UnpackedFloat
  (Sign ExtendedMantissa shiftToTargetExponent roundWithAccuracy)

namespace Binary

section Mantissas

/-- A mantissa without some of its last bits. -/
def shifted
    (mantissa count : Nat) : ExtendedMantissa :=
  ExtendedMantissa.ofMantissaAndAccuracy mantissa .exact >>> count

theorem shifted_succ
    (mantissa count : Nat) :
    shifted mantissa (count + 1) = (shifted mantissa count).shiftRightOne :=
  rfl

theorem mantissa_shifted
    (mantissa count : Nat) :
    (shifted mantissa count).mantissa = mantissa / 2 ^ count := by
  induction count with
  | zero =>
      exact (Nat.div_one mantissa).symm
  | succ count inductionHypothesis =>
      rw [shifted_succ, ExtendedMantissa.shiftRightOne, inductionHypothesis,
        Nat.div_div_eq_div_mul, Nat.pow_succ]

/-- The first bit that was cut off counts for half of the last one that was kept. -/
theorem le_of_roundBit
    {mantissa count : Nat}
    (cut : (shifted mantissa count).roundBit = true) :
    (2 * (mantissa / 2 ^ count) + 1) * 2 ^ count ≤ 2 * mantissa := by
  cases count with
  | zero =>
      cases cut
  | succ count =>
      rw [shifted_succ, ExtendedMantissa.shiftRightOne, mantissa_shifted,
        bne_iff_ne] at cut
      have odd : (mantissa / 2 ^ count) % 2 = 1 :=
        (Nat.mod_two_eq_zero_or_one _).resolve_left cut
      have halves := Nat.div_add_mod (mantissa / 2 ^ count) 2
      rw [odd, Nat.div_div_eq_div_mul, ← Nat.pow_succ] at halves
      have kept := Nat.div_mul_le_self mantissa (2 ^ count)
      rw [← halves] at kept
      rw [Nat.pow_succ]
      calc (2 * (mantissa / 2 ^ (count + 1)) + 1) * (2 ^ count * 2)
          = 2 * ((2 * (mantissa / 2 ^ (count + 1)) + 1) * 2 ^ count) := by
            ring
        _ ≤ 2 * mantissa :=
            Nat.mul_le_mul_left 2 kept

theorem le_roundedMantissa
    (extended : ExtendedMantissa) :
    extended.mantissa ≤ extended.roundedMantissa := by
  rcases extended with ⟨mantissa, _ | _, _ | _⟩
  · exact Nat.le_refl mantissa
  · exact Nat.le_refl mantissa
  · exact Nat.le_add_right mantissa _
  · exact Nat.le_succ mantissa

theorem roundedMantissa_le
    (extended : ExtendedMantissa) :
    extended.roundedMantissa ≤ extended.mantissa + 1 := by
  rcases extended with ⟨mantissa, _ | _, _ | _⟩
  · exact Nat.le_succ mantissa
  · exact Nat.le_succ mantissa
  · exact
      Nat.add_le_add_left
        (Nat.le_of_lt_succ (Nat.mod_lt mantissa Nat.two_pos)) mantissa
  · exact Nat.le_refl _

theorem roundedMantissa_of_not_roundBit
    {extended : ExtendedMantissa}
    (notCut : extended.roundBit = false) :
    extended.roundedMantissa = extended.mantissa := by
  rcases extended with ⟨mantissa, _ | _, _ | _⟩
  · rfl
  · rfl
  · cases notCut
  · cases notCut

variable {mantissa count bound : Nat}

/-- A mantissa is not rounded below a multiple of the last bit that is not above it. -/
theorem le_rounded_shifted
    (atLeast : bound * 2 ^ count ≤ mantissa) :
    bound ≤ (shifted mantissa count).roundedMantissa := by
  have kept := (Nat.le_div_iff_mul_le (Nat.two_pow_pos count)).mpr atLeast
  rw [← mantissa_shifted] at kept
  exact Nat.le_trans kept (le_roundedMantissa _)

/-- Nor is it rounded above a multiple that it exceeds by less than half of the bit. -/
theorem rounded_shifted_le
    (near : 2 * mantissa < (2 * bound + 1) * 2 ^ count) :
    (shifted mantissa count).roundedMantissa ≤ bound := by
  have kept : mantissa / 2 ^ count ≤ bound := by
    refine Nat.le_of_lt_succ ?_
    rw [Nat.div_lt_iff_lt_mul (Nat.two_pow_pos count)]
    have positive := Nat.two_pow_pos count
    nlinarith
  rcases Nat.lt_or_eq_of_le kept with below | same
  · have next := roundedMantissa_le (shifted mantissa count)
    rw [mantissa_shifted] at next
    exact Nat.le_trans next below
  · have notCut : (shifted mantissa count).roundBit = false := by
      rw [Bool.eq_false_iff]
      intro cut
      have half := le_of_roundBit cut
      rw [same] at half
      exact absurd near (Nat.not_lt.mpr half)
    rw [roundedMantissa_of_not_roundBit notCut, mantissa_shifted, same]

end Mantissas

section Values

/-- The one way in which a positive binary value is written. -/
structure Canonical
    (mantissa : Nat)
    (exponent : Int) : Prop where
  short :
    mantissa < 2 ^ 24
  notTooLow :
    -149 ≤ exponent
  full :
    2 ^ 23 ≤ mantissa ∨ exponent = -149

/-- A binary value is a rational number, and is written in the one way. -/
inductive Denotes : UnpackedFloat → Rat → Prop where
  | zero
      (sign : Sign) :
      Denotes (.zero sign) 0
  | finite
      {sign : Sign}
      {mantissa : Nat}
      {exponent : Int}
      (positive : 0 < mantissa) :
      Canonical mantissa exponent →
      Denotes (.finite sign mantissa exponent positive)
        (sign.apply mantissa * 2 ^ exponent)

/-- The exponent to which a mantissa is cut. -/
def target
    (mantissa : Nat)
    (exponent : Int) : Int :=
  max (mantissa.log2 + 1 + exponent - 24) (-149)

/-- Bits that a mantissa loses when it is cut. -/
def excess
    (mantissa : Nat)
    (exponent : Int) : Nat :=
  (target mantissa exponent - exponent).toNat

/-- The mantissa after it was cut and rounded. -/
def rounded
    (mantissa : Nat)
    (exponent : Int) : Nat :=
  (shifted mantissa (excess mantissa exponent)).roundedMantissa

variable {mantissa : Nat} {exponent : Int}

theorem excess_add
    (enough : exponent ≤ target mantissa exponent) :
    exponent + excess mantissa exponent = target mantissa exponent := by
  unfold excess
  omega

/-- A mantissa that is not full is cut to the least exponent. -/
theorem log2_of_target
    (enough : exponent ≤ target mantissa exponent) :
    mantissa.log2 ≤ excess mantissa exponent + 23 ∧
      (target mantissa exponent = -149 ∨
        mantissa.log2 = excess mantissa exponent + 23) := by
  unfold excess target at *
  omega

/-- The rounded mantissa has 24 bits, or is the next power of two. -/
theorem rounded_le
    (enough : exponent ≤ target mantissa exponent) :
    rounded mantissa exponent ≤ 2 ^ 24 := by
  refine rounded_shifted_le ?_
  have short : mantissa < 2 ^ (mantissa.log2 + 1) := Nat.lt_log2_self
  have bits :
      mantissa.log2 + 1 ≤ 24 + excess mantissa exponent := by
    have known := (log2_of_target enough).1
    omega
  have power :
      2 ^ (mantissa.log2 + 1) ≤ 2 ^ 24 * 2 ^ excess mantissa exponent := by
    rw [← Nat.pow_add]
    exact Nat.pow_le_pow_right Nat.two_pos bits
  have positivePower := Nat.two_pow_pos (excess mantissa exponent)
  nlinarith

/-- A mantissa that is not cut to the least exponent is at least the least full one. -/
theorem full_le
    (positive : 0 < mantissa)
    (enough : exponent ≤ target mantissa exponent)
    (notLeast : target mantissa exponent ≠ -149) :
    2 ^ 23 * 2 ^ excess mantissa exponent ≤ mantissa := by
  have full := (log2_of_target enough).2.resolve_left notLeast
  rw [← Nat.pow_add, Nat.add_comm 23, ← full]
  exact Nat.log2_self_le (Nat.pos_iff_ne_zero.mp positive)

/-- So is the rounded mantissa. -/
theorem le_rounded
    (positive : 0 < mantissa)
    (enough : exponent ≤ target mantissa exponent)
    (notLeast : target mantissa exponent ≠ -149) :
    2 ^ 23 ≤ rounded mantissa exponent :=
  le_rounded_shifted (full_le positive enough notLeast)

theorem notTooLow_target
    (mantissa : Nat)
    (exponent : Int) :
    -149 ≤ target mantissa exponent :=
  Int.le_max_right _ _

/-- The two cuts of a mantissa, of which the second one takes up a carry. -/
theorem roundWithAccuracy_eq
    (sign : Sign)
    (mantissa : Nat)
    (exponent : Int) :
    roundWithAccuracy .binary32 sign mantissa exponent .exact =
      let carried :=
        shifted (rounded mantissa exponent)
          (excess (rounded mantissa exponent)
            (exponent + excess mantissa exponent))
      if isZero : carried.mantissa = 0 then
        .zero sign
      else
        .finite sign carried.mantissa
          (exponent + excess mantissa exponent +
            excess (rounded mantissa exponent)
              (exponent + excess mantissa exponent))
          (Nat.pos_of_ne_zero isZero) :=
  rfl

/-- A mantissa that is short enough is not cut again. -/
theorem excess_of_short
    (short : mantissa < 2 ^ 24)
    (notTooLow : -149 ≤ exponent) :
    excess mantissa exponent = 0 := by
  have bits : mantissa.log2 < 24 := by
    by_cases isZero : mantissa = 0
    · rw [isZero]
      decide
    · exact (Nat.log2_lt isZero).mpr short
  unfold excess target
  omega

/-- The next power of two is cut by one bit, which is zero. -/
theorem excess_of_carry
    (notTooLow : -149 ≤ exponent) :
    excess (2 ^ 24) exponent = 1 := by
  unfold excess target
  rw [Nat.log2_two_pow]
  omega

/-- A rounded mantissa is zero, or it is written in the one way after a carry. -/
theorem denotes_roundWithAccuracy
    (sign : Sign)
    (positive : 0 < mantissa)
    (enough : exponent ≤ target mantissa exponent) :
    Denotes (roundWithAccuracy .binary32 sign mantissa exponent .exact)
      (sign.apply (rounded mantissa exponent) *
        2 ^ target mantissa exponent) := by
  have notTooLow := notTooLow_target mantissa exponent
  rw [roundWithAccuracy_eq, excess_add enough]
  rcases Nat.lt_or_eq_of_le (rounded_le enough) with short | carries
  · rw [excess_of_short short notTooLow]
    simp only [mantissa_shifted, Nat.pow_zero, Nat.div_one,
      Int.natCast_zero, Int.add_zero]
    split
    · rename_i isZero
      rw [isZero]
      have isNothing : ((sign.apply (0 : Nat) : Int) : Rat) = 0 := by
        cases sign <;> rfl
      rw [isNothing, zero_mul]
      exact .zero sign
    · rename_i notZero
      refine
        .finite (Nat.pos_of_ne_zero notZero) ⟨short, notTooLow, ?_⟩
      by_cases isLeast : target mantissa exponent = -149
      · exact .inr isLeast
      · exact .inl (le_rounded positive enough isLeast)
  · rw [carries, excess_of_carry notTooLow]
    simp only [mantissa_shifted]
    have halved : 2 ^ 24 / 2 ^ 1 = 2 ^ 23 := by
      decide
    have sameValue :
        (sign.apply (2 ^ 24 : Nat) : Rat) * 2 ^ target mantissa exponent =
          sign.apply (2 ^ 24 / 2 ^ 1 : Nat) *
            2 ^ (target mantissa exponent + (1 : Nat)) := by
      rw [halved, zpow_add₀ (by norm_num : (2 : Rat) ≠ 0)]
      cases sign <;> simp only [Sign.apply] <;> norm_num <;> ring
    rw [sameValue]
    split
    · rename_i isZero
      rw [halved] at isZero
      exact absurd isZero (by decide)
    · rename_i notZero
      refine
        .finite (Nat.pos_of_ne_zero notZero)
          ⟨by decide, by omega, .inl (by decide)⟩

end Values

section Rationals

/-- A rational number that is a scalar, or would be one if no exponent was too high. -/
def Fits
    (exact : Rat) : Prop :=
  ∃ mantissa exponent : Int,
    |mantissa| ≤ 2 ^ 24 ∧ -149 ≤ exponent ∧ exact = mantissa * 2 ^ exponent

theorem Fits.neg
    {exact : Rat}
    (fits : Fits exact) :
    Fits (-exact) := by
  obtain ⟨mantissa, exponent, short, notTooLow, rfl⟩ := fits
  refine ⟨-mantissa, exponent, ?_, notTooLow, ?_⟩
  · rw [abs_neg]
    exact short
  · push_cast
    ring

/-- A rational number and the scalar to which it is rounded. -/
structure Rounds
    (exact result : Rat) : Prop where
  atLeast :
    ∀ scalar, Fits scalar → scalar ≤ exact → scalar ≤ result
  atMost :
    ∀ scalar, Fits scalar → exact ≤ scalar → result ≤ scalar
  atMostOne :
    exact < 1 + 1 / 2 ^ 24 → result ≤ 1

/-- The negative of a positive number is rounded to the negative result. -/
theorem Rounds.neg
    {exact result : Rat}
    (rounds : Rounds exact result)
    (nonneg : 0 ≤ result) :
    Rounds (-exact) (-result) where
  atLeast scalar fits atMost :=
    le_neg_of_le_neg (rounds.atMost (-scalar) fits.neg (le_neg_of_le_neg atMost))
  atMost scalar fits atLeast :=
    neg_le_of_neg_le
      (rounds.atLeast (-scalar) fits.neg (neg_le_of_neg_le atLeast))
  atMostOne _ :=
    le_trans (neg_nonpos.mpr nonneg) zero_le_one

variable {mantissa bound : Nat} {exponent : Int}

/-- The last bit that is kept, in units of the last one that there was. -/
theorem two_zpow_target
    (enough : exponent ≤ target mantissa exponent) :
    (2 : Rat) ^ target mantissa exponent =
      2 ^ excess mantissa exponent * 2 ^ exponent := by
  rw [← excess_add enough, zpow_add₀ two_ne_zero, zpow_natCast, mul_comm]

theorem le_exact_iff
    (enough : exponent ≤ target mantissa exponent) :
    (bound : Rat) * 2 ^ target mantissa exponent ≤ mantissa * 2 ^ exponent ↔
      bound * 2 ^ excess mantissa exponent ≤ mantissa := by
  rw [two_zpow_target enough, ← mul_assoc,
    mul_le_mul_iff_left₀ (zpow_pos two_pos exponent)]
  exact_mod_cast Iff.rfl

theorem exact_le_iff
    (enough : exponent ≤ target mantissa exponent) :
    (mantissa : Rat) * 2 ^ exponent ≤ bound * 2 ^ target mantissa exponent ↔
      mantissa ≤ bound * 2 ^ excess mantissa exponent := by
  rw [two_zpow_target enough, ← mul_assoc,
    mul_le_mul_iff_left₀ (zpow_pos two_pos exponent)]
  exact_mod_cast Iff.rfl

/-- A multiple of the last bit is not rounded up to a larger one. -/
theorem rounded_le_of_le
    (atMost : mantissa ≤ bound * 2 ^ excess mantissa exponent) :
    rounded mantissa exponent ≤ bound := by
  refine rounded_shifted_le ?_
  have positivePower := Nat.two_pow_pos (excess mantissa exponent)
  nlinarith

/-- A scalar with a higher exponent is a multiple of the last bit that is kept. -/
theorem exists_multiple
    {count place higher : Int}
    (nonneg : 0 ≤ count)
    (isHigher : place ≤ higher) :
    ∃ multiple : Nat,
      (count : Rat) * 2 ^ higher = multiple * 2 ^ place := by
  obtain ⟨natural, rfl⟩ := Int.eq_ofNat_of_zero_le nonneg
  obtain ⟨shift, isShift⟩ := Int.eq_ofNat_of_zero_le (sub_nonneg.mpr isHigher)
  refine ⟨natural * 2 ^ shift, ?_⟩
  rw [← sub_add_cancel higher place, isShift, zpow_add₀ two_ne_zero,
    zpow_natCast]
  push_cast
  ring

/-- A scalar with a lower exponent is at most the least full mantissa. -/
theorem le_full_of_lower
    {count place lower : Int}
    (short : |count| ≤ 2 ^ 24)
    (isLower : lower < place) :
    (count : Rat) * 2 ^ lower ≤ (2 ^ 23 : Nat) * 2 ^ place := by
  have atMost : (count : Rat) ≤ 2 ^ 24 := by
    exact_mod_cast le_trans (le_abs_self count) short
  have next : (2 : Rat) ^ lower * 2 ≤ 2 ^ place := by
    rw [← zpow_add_one₀ two_ne_zero]
    exact zpow_le_zpow_right₀ one_le_two isLower
  have positive : (0 : Rat) < 2 ^ lower := zpow_pos two_pos lower
  push_cast
  nlinarith

theorem fits_one :
    Fits 1 :=
  ⟨1, 0, by norm_num, by norm_num, by norm_num⟩

/-- What is more than one and less than two is cut to 23 bits behind the point. -/
theorem target_of_between
    (positive : 0 < mantissa)
    (moreThanOne : (1 : Rat) < mantissa * 2 ^ exponent)
    (lessThanTwo : (mantissa : Rat) * 2 ^ exponent < 2) :
    target mantissa exponent = -23 := by
  have power : (0 : Rat) < 2 ^ exponent := zpow_pos two_pos exponent
  have low : (2 : Rat) ^ (mantissa.log2 + exponent) < 2 ^ (1 : Int) := by
    have least : ((2 ^ mantissa.log2 : Nat) : Rat) ≤ mantissa := by
      exact_mod_cast Nat.log2_self_le (Nat.pos_iff_ne_zero.mp positive)
    rw [zpow_add₀ two_ne_zero, zpow_natCast, zpow_one]
    push_cast at least
    nlinarith
  have high : (2 : Rat) ^ (0 : Int) < 2 ^ (mantissa.log2 + 1 + exponent) := by
    have most : (mantissa : Rat) < ((2 ^ (mantissa.log2 + 1) : Nat) : Rat) := by
      exact_mod_cast Nat.lt_log2_self
    have isNatural : (mantissa.log2 : Int) + 1 = ((mantissa.log2 + 1 : Nat) : Int) :=
      rfl
    rw [isNatural, zpow_add₀ two_ne_zero, zpow_natCast, zpow_zero]
    push_cast at most
    nlinarith
  have notAbove := (zpow_lt_zpow_iff_right₀ one_lt_two).mp low
  have notBelow := (zpow_lt_zpow_iff_right₀ one_lt_two).mp high
  unfold target
  omega

/-- No scalar above the exact value is below the rounded one. -/
theorem rounded_le_scalar
    (positive : 0 < mantissa)
    (enough : exponent ≤ target mantissa exponent)
    {scalar : Rat}
    (fits : Fits scalar)
    (atMost : (mantissa : Rat) * 2 ^ exponent ≤ scalar) :
    (rounded mantissa exponent : Rat) * 2 ^ target mantissa exponent ≤
      scalar := by
  obtain ⟨count, other, short, _, rfl⟩ := fits
  have unit : (0 : Rat) < 2 ^ target mantissa exponent :=
    zpow_pos two_pos _
  have countPositive : 0 < count := by
    have exactPositive : (0 : Rat) < mantissa * 2 ^ exponent :=
      mul_pos (by exact_mod_cast positive) (zpow_pos two_pos exponent)
    have scalarPositive := lt_of_lt_of_le exactPositive atMost
    exact_mod_cast pos_of_mul_pos_left scalarPositive (zpow_pos two_pos other).le
  rcases le_or_gt (target mantissa exponent) other with isHigher | isLower
  · obtain ⟨multiple, isMultiple⟩ :=
      exists_multiple countPositive.le isHigher
    rw [isMultiple] at atMost ⊢
    have notMore := rounded_le_of_le ((exact_le_iff enough).mp atMost)
    exact mul_le_mul_of_nonneg_right (by exact_mod_cast notMore) unit.le
  · -- Both values are then the least full mantissa.
    have notLeast : target mantissa exponent ≠ -149 := by
      omega
    have scalarAtMost := le_full_of_lower short isLower
    have notMore :=
      rounded_le_of_le
        ((exact_le_iff enough).mp (le_trans atMost scalarAtMost))
    have exactAtLeast :=
      (le_exact_iff enough).mpr (full_le positive enough notLeast)
    calc (rounded mantissa exponent : Rat) * 2 ^ target mantissa exponent
        ≤ (2 ^ 23 : Nat) * 2 ^ target mantissa exponent :=
          mul_le_mul_of_nonneg_right (by exact_mod_cast notMore) unit.le
      _ ≤ mantissa * 2 ^ exponent := exactAtLeast
      _ ≤ count * 2 ^ other := atMost

/-- No scalar below the exact value is above the rounded one. -/
theorem scalar_le_rounded
    (positive : 0 < mantissa)
    (enough : exponent ≤ target mantissa exponent)
    {scalar : Rat}
    (fits : Fits scalar)
    (atLeast : scalar ≤ (mantissa : Rat) * 2 ^ exponent) :
    scalar ≤
      (rounded mantissa exponent : Rat) * 2 ^ target mantissa exponent := by
  obtain ⟨count, other, short, notTooLow, rfl⟩ := fits
  have unit : (0 : Rat) < 2 ^ target mantissa exponent :=
    zpow_pos two_pos _
  rcases le_or_gt count 0 with isNegative | isPositive
  · have countNegative : (count : Rat) ≤ 0 := by
      exact_mod_cast isNegative
    exact
      le_trans
        (mul_nonpos_of_nonpos_of_nonneg countNegative
          (zpow_pos two_pos other).le)
        (mul_nonneg (Nat.cast_nonneg _) unit.le)
  · rcases le_or_gt (target mantissa exponent) other with isHigher | isLower
    · obtain ⟨multiple, isMultiple⟩ := exists_multiple isPositive.le isHigher
      rw [isMultiple] at atLeast ⊢
      have notLess := le_rounded_shifted ((le_exact_iff enough).mp atLeast)
      exact mul_le_mul_of_nonneg_right (by exact_mod_cast notLess) unit.le
    · have notLeast : target mantissa exponent ≠ -149 := by
        omega
      have notLess := le_rounded positive enough notLeast
      exact
        le_trans (le_full_of_lower short isLower)
          (mul_le_mul_of_nonneg_right (by exact_mod_cast notLess) unit.le)

/-- What is nearer to one than to the next scalar is rounded to one at most. -/
theorem rounded_le_one
    (positive : 0 < mantissa)
    (enough : exponent ≤ target mantissa exponent)
    (near : (mantissa : Rat) * 2 ^ exponent < 1 + 1 / 2 ^ 24) :
    (rounded mantissa exponent : Rat) * 2 ^ target mantissa exponent ≤ 1 := by
  rcases le_or_gt ((mantissa : Rat) * 2 ^ exponent) 1 with atMost | more
  · exact rounded_le_scalar positive enough fits_one atMost
  · have lessThanTwo : (mantissa : Rat) * 2 ^ exponent < 2 :=
      lt_trans near (by norm_num)
    have isTarget := target_of_between positive more lessThanTwo
    have power : (0 : Rat) < 2 ^ exponent := zpow_pos two_pos exponent
    have unit :
        (2 : Rat) ^ excess mantissa exponent * 2 ^ exponent = 1 / 2 ^ 23 := by
      rw [← two_zpow_target enough, isTarget]
      norm_num
    have short :
        2 * mantissa < (2 * 2 ^ 23 + 1) * 2 ^ excess mantissa exponent := by
      have scaled :
          2 * (mantissa : Rat) * 2 ^ exponent <
            (2 * 2 ^ 23 + 1) * 2 ^ excess mantissa exponent *
              2 ^ exponent := by
        rw [mul_assoc (2 * 2 ^ 23 + 1 : Rat), unit]
        norm_num at near ⊢
        linarith
      exact_mod_cast lt_of_mul_lt_mul_right scaled power.le
    have notMore := rounded_shifted_le short
    rw [isTarget]
    have natural : (rounded mantissa exponent : Rat) ≤ 2 ^ 23 := by
      exact_mod_cast notMore
    calc (rounded mantissa exponent : Rat) * 2 ^ (-23 : Int)
        ≤ 2 ^ 23 * 2 ^ (-23 : Int) :=
          mul_le_mul_of_nonneg_right natural (zpow_pos two_pos _).le
      _ = 1 := by
          norm_num

/-- The rounded mantissa compares with scalars as the exact value does. -/
theorem rounds_rounded
    (positive : 0 < mantissa)
    (enough : exponent ≤ target mantissa exponent) :
    Rounds (mantissa * 2 ^ exponent)
      (rounded mantissa exponent * 2 ^ target mantissa exponent) where
  atLeast _ fits := scalar_le_rounded positive enough fits
  atMost _ fits := rounded_le_scalar positive enough fits
  atMostOne := rounded_le_one positive enough

end Rationals

end Binary

end LevelCollision
