import LevelCollision.Proofs.UnitScalars

namespace LevelCollision

/-!
# Differences of binary scalars

The difference of two finite scalars is rounded, and it may be too large to be one. Its
sign tells all the same which of the two is the larger: scalars that differ do so by at
least the least positive one, so that no difference is rounded to zero.

Numbers may be equal in the order and differ as scalars, but this is so of the two zeros
only. Positive scalars of which neither is larger than the other are one.
-/

open Float.Model (Format UnpackedFloat)
open Float.Model.UnpackedFloat
  (Sign pack unpack pack_unpack isNaNBits packedInfinity
    unpackMantissa_packComponents unpackExponent_packComponents
    unpackSign_packComponents unpack_packedZero)

namespace Binary

section Rationals

variable {exact left right result : Rat}

/-- Every scalar is a multiple of the least positive one. -/
theorem Fits.exists_count
    (fits : Fits exact) :
    ∃ count : Int, exact = count * 2 ^ (-149 : Int) := by
  obtain ⟨mantissa, exponent, _, notTooLow, rfl⟩ := fits
  obtain ⟨shift, isShift⟩ :=
    Int.eq_ofNat_of_zero_le (neg_le_iff_add_nonneg.mp notTooLow)
  refine ⟨mantissa * 2 ^ shift, ?_⟩
  have exponentSum : exponent = shift + (-149) := by
    omega
  rw [exponentSum, zpow_add₀ two_ne_zero, zpow_natCast]
  push_cast
  ring

theorem fits_neg_least :
    Fits (-2 ^ (-149 : Int)) :=
  ⟨-1, -149, by norm_num, by norm_num, by norm_num⟩

/-- A difference of scalars is rounded to a negative result if it is negative itself. -/
theorem Rounds.nonneg_iff
    (rounds : Rounds (left - right) result)
    (leftFits : Fits left)
    (rightFits : Fits right) :
    0 ≤ result ↔ right ≤ left := by
  constructor
  · intro nonneg
    by_contra isLess
    obtain ⟨leftCount, rfl⟩ := leftFits.exists_count
    obtain ⟨rightCount, rfl⟩ := rightFits.exists_count
    have unit : (0 : Rat) < 2 ^ (-149 : Int) := zpow_pos two_pos _
    have fewer : leftCount < rightCount := by
      exact_mod_cast lt_of_mul_lt_mul_right (not_le.mp isLess) unit.le
    have countAtMost : (leftCount : Rat) - rightCount ≤ -1 := by
      have stepped : (leftCount : Rat) + 1 ≤ rightCount := by
        exact_mod_cast fewer
      linarith
    have atMost :
        leftCount * 2 ^ (-149 : Int) - rightCount * 2 ^ (-149 : Int) ≤
          (-2 ^ (-149 : Int) : Rat) := by
      nlinarith
    have negative := rounds.atMost _ fits_neg_least atMost
    linarith
  · intro atMost
    exact rounds.atLeast 0 fits_zero (sub_nonneg.mpr atMost)

end Rationals

section Values

variable {value : UnpackedFloat} {exact : Rat}

/-- What has too high an exponent is packed as an infinity of its sign. -/
theorem unpack_pack_infinity
    {sign : Sign}
    {mantissa : Nat}
    {exponent : Int}
    (positive : 0 < mantissa)
    (tooHigh : 104 < exponent) :
    unpack .binary32
        (pack .binary32 (.finite sign mantissa exponent positive)) =
      .infinity sign := by
  have overflows :
      2 ^ Format.exponentBits .binary32 ≤
        (exponent + Format.exponentBias .binary32 +
            Format.mantissaBitsWithoutImplicit .binary32).toNat +
          1 := by
    change 2 ^ 8 ≤ (exponent + 127 + 23).toNat + 1
    omega
  unfold pack
  simp only [overflows, ↓reduceIte]
  unfold unpack packedInfinity
  simp only [unpackMantissa_packComponents, unpackExponent_packComponents,
    unpackSign_packComponents, Sign.ofBitVec_toBitVec, ↓reduceIte]
  exact if_pos rfl

/-- The sign of what a value denotes is kept by packing it, however large it is. -/
theorem Denotes.nonneg_iff_packed
    (denotes : Denotes value exact) :
    (((UnpackedFloat.zero .positive).compare
              (unpack .binary32 (pack .binary32 value))).any
          (·.isLE) =
        true) ↔
      0 ≤ exact := by
  have notPacked
      {unpacked : UnpackedFloat}
      (denotesAgain : Denotes unpacked exact) :
      ((UnpackedFloat.zero .positive).compare unpacked).any (·.isLE) =
          true ↔
        0 ≤ exact := by
    rw [Denotes.compare (.zero .positive) denotesAgain, Option.any_some,
      Ordering.isLE_iff_ne_gt]
    exact compare_le_iff_le
  cases denotes with
  | zero sign =>
      rw [pack, unpack_packedZero]
      exact notPacked (.zero sign)
  | @finite sign mantissa exponent positive canonical =>
      rcases le_or_gt exponent 104 with notTooHigh | tooHigh
      · rw [Binary.unpack_pack positive canonical notTooHigh]
        exact notPacked (.finite positive canonical)
      · have magnitude : (0 : Rat) < mantissa * 2 ^ exponent :=
          mul_pos (Nat.cast_pos.mpr positive) (zpow_pos two_pos exponent)
        rw [unpack_pack_infinity positive tooHigh, apply_mul_zpow]
        cases sign with
        | positive =>
            exact iff_of_true rfl magnitude.le
        | negative =>
            exact
              iff_of_false Bool.false_ne_true
                (not_le.mpr (neg_neg_of_pos magnitude))

end Values

end Binary

namespace Scalar

open Binary

variable {first second : Float32}

/-- A finite scalar is a rational number. -/
theorem exists_holds_of_isFinite
    {value : Float32}
    (finite : value.isFinite = true) :
    ∃ exact : Rat, Holds value exact := by
  have finite : value.toModel.unpack.isFinite = true := finite
  unfold Holds
  cases unpacks : value.toModel.unpack with
  | infinity sign =>
      rw [unpacks] at finite
      cases finite
  | notANumber =>
      rw [unpacks] at finite
      cases finite
  | zero sign =>
      exact ⟨0, .zero sign⟩
  | finite sign mantissa exponent positive =>
      exact ⟨_, .finite positive (canonical_unpack unpacks)⟩

/-- The sign of a difference tells which of two finite scalars is the larger. -/
theorem zero_le_sub_iff
    (firstFinite : first.isFinite = true)
    (secondFinite : second.isFinite = true) :
    0 ≤ first - second ↔ second ≤ first := by
  obtain ⟨left, holdsFirst⟩ := exists_holds_of_isFinite firstFinite
  obtain ⟨right, holdsSecond⟩ := exists_holds_of_isFinite secondFinite
  obtain ⟨result, denotes, rounds⟩ := Denotes.sub holdsFirst holdsSecond
  rw [holdsSecond.le_iff holdsFirst,
    ← rounds.nonneg_iff (Denotes.fits holdsFirst)
      (Denotes.fits holdsSecond),
    ← denotes.nonneg_iff_packed]
  exact le_iff_compare

theorem beq_self_of_isFinite
    {value : Float32}
    (finite : value.isFinite = true) :
    (value == value) = true := by
  obtain ⟨exact, holds⟩ := exists_holds_of_isFinite finite
  obtain ⟨position, stands, -⟩ :=
    float32_le_iff.mp ((holds.le_iff holds).mpr (le_refl exact))
  exact float32_beq_iff.mpr ⟨position, stands, stands⟩

/-- Of two finite scalars one is the smaller unless the other is at most it. -/
theorem lt_iff_not_le
    (firstFinite : first.isFinite = true)
    (secondFinite : second.isFinite = true) :
    first < second ↔ ¬second ≤ first := by
  constructor
  · intro less atMost
    exact LawfulUnit.not_lt_of_le atMost less
  · intro notAtMost
    by_contra notLess
    exact
      notAtMost
        (LawfulOrder.le_of_not_lt (beq_self_of_isFinite firstFinite)
          (beq_self_of_isFinite secondFinite) notLess)

/-- Bits that were unpacked are packed again as they were. -/
theorem pack_unpack_of_valid
    {bits : BitVec (Format.numBits .binary32)}
    (valid : Format.Valid .binary32 bits) :
    pack .binary32 (unpack .binary32 bits) = bits := by
  rw [pack_unpack bits (by decide)]
  split
  · rename_i isNaN
    obtain ⟨isTop, isNotZero⟩ := of_decide_eq_true isNaN
    exact (valid.eq_packedNaN isTop isNotZero).symm
  · rfl

/-- Scalars that are unpacked alike are one. -/
theorem eq_of_unpack_eq
    (same : first.toModel.unpack = second.toModel.unpack) :
    first = second := by
  have sameBits := congrArg (pack .binary32) same
  simp only [Float32.Model.unpack,
    pack_unpack_of_valid first.toModel.valid,
    pack_unpack_of_valid second.toModel.valid] at sameBits
  exact Float32.toBits_inj.mp (UInt32.toBitVec_inj.mp sameBits)

/-- Laws under which there is one scalar for each positive number. -/
class LawfulLine
    (S : Type)
    [Scalar S] : Prop
    extends LawfulUnit S where
  eq_of_le_of_le :
    ∀ {first second : S},
      0 < first → first ≤ second → second ≤ first → first = second

instance : LawfulLine Rat where
  eq_of_le_of_le _ := le_antisymm

/-- What stands behind zero is finite and positive, or the positive infinity. -/
theorem positive_of_place
    {value : UnpackedFloat}
    {position : Int ×ₗ Int ×ₗ Int}
    (stands : place value = some position)
    (behindZero : toLex (0, toLex (0, 0)) < position) :
    (∃ (mantissa : Nat) (exponent : Int) (positive : 0 < mantissa),
      value = .finite .positive mantissa exponent positive ∧
        position = toLex (1, toLex (exponent, (mantissa : Int)))) ∨
      value = .infinity .positive ∧
        position = toLex (2, toLex (0, 0)) := by
  cases value with
  | notANumber =>
      cases stands
  | zero sign =>
      cases stands
      exact absurd behindZero (lt_irrefl _)
  | infinity sign =>
      cases sign with
      | negative =>
          cases stands
          simp [Prod.Lex.toLex_lt_toLex] at behindZero
      | positive =>
          cases stands
          exact .inr ⟨rfl, rfl⟩
  | finite sign mantissa exponent positive =>
      cases sign with
      | negative =>
          cases stands
          simp [Prod.Lex.toLex_lt_toLex] at behindZero
      | positive =>
          cases stands
          exact .inl ⟨mantissa, exponent, positive, rfl, rfl⟩

/-- There is one value at each place behind zero. -/
theorem eq_of_place_eq
    {value other : UnpackedFloat}
    {position : Int ×ₗ Int ×ₗ Int}
    (stands : place value = some position)
    (otherStands : place other = some position)
    (behindZero : toLex (0, toLex (0, 0)) < position) :
    value = other := by
  rcases positive_of_place stands behindZero with
      ⟨mantissa, exponent, positive, rfl, rfl⟩ | ⟨rfl, rfl⟩
  · rcases positive_of_place otherStands behindZero with
        ⟨otherMantissa, otherExponent, otherPositive, rfl, same⟩ | ⟨_, same⟩
    · simp only [EmbeddingLike.apply_eq_iff_eq, Prod.mk.injEq, true_and,
        Nat.cast_inj] at same
      exact finite_congr same.2 same.1 positive otherPositive
    · simp at same
  · rcases positive_of_place otherStands behindZero with
        ⟨_, _, _, _, same⟩ | ⟨rfl, _⟩
    · simp at same
    · rfl

instance : LawfulLine Float32 where
  eq_of_le_of_le {first second} positive atMost atLeast := by
    obtain ⟨zeroPlace, isZero, before, isBefore, behindZero⟩ :=
      float32_lt_iff.mp positive
    obtain ⟨_, isBeforeToo, after, isAfter, atMost⟩ :=
      float32_le_iff.mp atMost
    obtain ⟨_, isAfterToo, _, isBeforeAgain, atLeast⟩ :=
      float32_le_iff.mp atLeast
    cases Option.mem_unique isBefore isBeforeToo
    cases Option.mem_unique isBefore isBeforeAgain
    cases Option.mem_unique isAfter isAfterToo
    cases le_antisymm atMost atLeast
    have zero : placeOf (0 : Float32) = some (toLex (0, toLex (0, 0))) := rfl
    cases Option.mem_unique isZero zero
    exact eq_of_unpack_eq (eq_of_place_eq isBefore isAfter behindZero)

section Lines

variable {S : Type} [Scalar S]

/-- What is less than something is less than any number that this does not exceed. -/
theorem lt_of_lt_of_le
    [LawfulUnit S]
    {first second third : S}
    (isNumber : (third == third) = true)
    (less : first < second)
    (atMost : second ≤ third) :
    first < third := by
  by_contra notLess
  have atLeast :=
    LawfulOrder.le_of_not_lt (LawfulOrder.beq_self_of_lt less) isNumber
      notLess
  exact
    LawfulUnit.not_lt_of_le (LawfulOrder.le_trans atMost atLeast) less

/-- A scalar is positive, or it is the zero that has no sign. -/
def Unsigned
    (value : S) : Prop :=
  value = 0 ∨ 0 < value

theorem unsigned_one
    [LawfulOrder S] :
    Unsigned (1 : S) :=
  .inr LawfulOrder.zero_lt_one

/-- The larger of zero and any value is such a scalar. -/
theorem unsigned_upper
    [LawfulOrder S]
    (value : S) :
    Unsigned (upper 0 value) := by
  rw [upper_zero]
  split
  · exact .inr ‹_›
  · exact .inl rfl

/-- Of such scalars there is one for each number. -/
theorem Unsigned.eq_of_le_of_le
    [LawfulLine S]
    {first second : S}
    (firstUnsigned : Unsigned first)
    (secondUnsigned : Unsigned second)
    (atMost : first ≤ second)
    (atLeast : second ≤ first) :
    first = second := by
  rcases firstUnsigned with isZero | positive
  · rcases secondUnsigned with isZeroToo | positive
    · exact isZero.trans isZeroToo.symm
    · rw [isZero] at atLeast
      exact absurd positive (LawfulUnit.not_lt_of_le atLeast)
  · exact LawfulLine.eq_of_le_of_le positive atMost atLeast

end Lines

end Scalar

end LevelCollision
