import LevelCollision.Proofs.BinaryPacking
import LevelCollision.Proofs.ScalarOrder

namespace LevelCollision

/-!
# Scalars between zero and one

The ends of a segment are fractions of a motion. The fraction at a part of a segment is
computed with three roundings, and none of them leads out of the range from zero to one,
so that it is always a number. The laws of `LawfulUnit` say so of every kind of scalar.
-/

open Float.Model (UnpackedFloat)
open Float.Model.UnpackedFloat (Sign pack unpack)

namespace Binary

section Order

variable {mantissa otherMantissa : Nat} {exponent otherExponent : Int}

/-- Of two positive values the one with the lower exponent is the smaller. -/
theorem Canonical.magnitude_lt
    (canonical : Canonical mantissa exponent)
    (otherCanonical : Canonical otherMantissa otherExponent)
    (isLower : exponent < otherExponent) :
    (mantissa : Rat) * 2 ^ exponent < otherMantissa * 2 ^ otherExponent := by
  have notTooLow := canonical.notTooLow
  have full := otherCanonical.full.resolve_right (by omega)
  have short : (mantissa : Rat) < 2 ^ 24 := by
    exact_mod_cast canonical.short
  have atLeast : (2 ^ 23 : Rat) ≤ otherMantissa := by
    exact_mod_cast full
  have power : (0 : Rat) < 2 ^ exponent := zpow_pos two_pos exponent
  have next : (2 : Rat) ^ exponent * 2 ≤ 2 ^ otherExponent := by
    rw [← zpow_add_one₀ two_ne_zero]
    exact zpow_le_zpow_right₀ one_le_two isLower
  calc (mantissa : Rat) * 2 ^ exponent
      < 2 ^ 24 * 2 ^ exponent :=
        mul_lt_mul_of_pos_right short power
    _ = 2 ^ 23 * (2 ^ exponent * 2) := by
        ring
    _ ≤ otherMantissa * 2 ^ otherExponent :=
        mul_le_mul atLeast next (by positivity) (by positivity)

/-- Positive values compare by their exponents first and by their mantissas then. -/
theorem compare_magnitudes
    (canonical : Canonical mantissa exponent)
    (otherCanonical : Canonical otherMantissa otherExponent) :
    (compare exponent otherExponent).then
        (compare mantissa otherMantissa) =
      compare ((mantissa : Rat) * 2 ^ exponent)
        (otherMantissa * 2 ^ otherExponent) := by
  rcases lt_trichotomy exponent otherExponent with isLower | rfl | isHigher
  · rw [compare_lt_iff_lt.mpr isLower,
      compare_lt_iff_lt.mpr (canonical.magnitude_lt otherCanonical isLower)]
    rfl
  · have scales : StrictMono fun count : Nat => (count : Rat) * 2 ^ exponent :=
      (strictMono_mul_right_of_pos (zpow_pos two_pos exponent)).comp
        Nat.strictMono_cast
    rw [compare_eq_iff_eq.mpr rfl, Ordering.eq_then, ← cmp_eq_compare,
      ← cmp_eq_compare]
    exact (scales.cmp_map_eq mantissa otherMantissa).symm
  · rw [compare_gt_iff_gt.mpr isHigher,
      compare_gt_iff_gt.mpr (otherCanonical.magnitude_lt canonical isHigher)]
    rfl

/-- A finite value denotes its magnitude or the negative of that. -/
theorem apply_mul_zpow
    (sign : Sign)
    (mantissa : Nat)
    (exponent : Int) :
    (sign.apply mantissa : Rat) * 2 ^ exponent =
      match sign with
      | .positive => mantissa * 2 ^ exponent
      | .negative => -(mantissa * 2 ^ exponent) := by
  cases sign with
  | positive =>
      rfl
  | negative =>
      simp only [Sign.apply, Int.cast_neg, neg_mul, Int.cast_natCast]

variable {first second : UnpackedFloat} {left right : Rat}

/-- Values compare as the numbers do that they denote. -/
theorem Denotes.compare
    (denotesFirst : Denotes first left)
    (denotesSecond : Denotes second right) :
    first.compare second = some (compare left right) := by
  have magnitude_pos
      {mantissa : Nat}
      (positive : 0 < mantissa)
      (exponent : Int) :
      (0 : Rat) < mantissa * 2 ^ exponent :=
    mul_pos (Nat.cast_pos.mpr positive) (zpow_pos two_pos exponent)
  cases denotesFirst with
  | zero sign =>
      cases denotesSecond with
      | zero other =>
          rw [compare_eq_iff_eq.mpr rfl]
          rfl
      | @finite other _ exponent positive _ =>
          have nonzero := magnitude_pos positive exponent
          rw [apply_mul_zpow]
          cases other with
          | positive =>
              rw [compare_lt_iff_lt.mpr nonzero]
              rfl
          | negative =>
              rw [compare_gt_iff_gt.mpr (neg_neg_of_pos nonzero)]
              rfl
  | @finite sign mantissa exponent positive canonical =>
      have nonzero := magnitude_pos positive exponent
      rw [apply_mul_zpow]
      cases denotesSecond with
      | zero other =>
          cases sign with
          | positive =>
              rw [compare_gt_iff_gt.mpr nonzero]
              rfl
          | negative =>
              rw [compare_lt_iff_lt.mpr (neg_neg_of_pos nonzero)]
              rfl
      | @finite other otherMantissa otherExponent otherPositive
          otherCanonical =>
          have otherNonzero := magnitude_pos otherPositive otherExponent
          have magnitudes := compare_magnitudes canonical otherCanonical
          rw [apply_mul_zpow]
          cases sign with
          | positive =>
              cases other with
              | positive =>
                  rw [← magnitudes]
                  rfl
              | negative =>
                  rw [compare_gt_iff_gt.mpr
                    (lt_trans (neg_neg_of_pos otherNonzero) nonzero)]
                  rfl
          | negative =>
              cases other with
              | positive =>
                  rw [compare_lt_iff_lt.mpr
                    (lt_trans (neg_neg_of_pos nonzero) otherNonzero)]
                  rfl
              | negative =>
                  rw [Scalar.compare_neg, ← magnitudes]
                  rfl

end Order

section Rationals

variable {exact result bound : Rat}

/-- The scalar to which a rational number is rounded is between the same scalars. -/
theorem Rounds.abs_result_le
    (rounds : Rounds exact result)
    (fits : Fits bound)
    (bounded : |exact| ≤ bound) :
    |result| ≤ bound := by
  obtain ⟨notBelow, notAbove⟩ := abs_le.mp bounded
  exact
    abs_le.mpr
      ⟨rounds.atLeast (-bound) fits.neg notBelow,
        rounds.atMost bound fits notAbove⟩

theorem fits_zero :
    Fits 0 :=
  ⟨0, 0, by norm_num, by norm_num, by norm_num⟩

/-- The largest power of two that is a scalar. -/
theorem fits_largest :
    Fits (2 ^ (127 : Int)) :=
  ⟨1, 127, by norm_num, by norm_num, by norm_num⟩

/-- Above what is between zero and one there is a scalar that is near to it. -/
theorem exists_fits_near
    (nonneg : 0 ≤ exact)
    (atMostOne : exact ≤ 1) :
    ∃ scalar, Fits scalar ∧ exact ≤ scalar ∧ scalar < exact + 1 / 2 ^ 24 := by
  have scaledNonneg : 0 ≤ exact * 2 ^ 24 := by
    positivity
  have scaledAtMost : exact * 2 ^ 24 ≤ ((2 ^ 24 : Int) : Rat) := by
    push_cast
    nlinarith
  refine
    ⟨⌈exact * 2 ^ 24⌉ * 2 ^ (-24 : Int), ⟨_, _, ?_, by norm_num, rfl⟩, ?_, ?_⟩
  · rw [abs_of_nonneg (Int.ceil_nonneg scaledNonneg)]
    exact Int.ceil_le.mpr scaledAtMost
  · have atLeast := Int.le_ceil (exact * 2 ^ 24)
    rw [zpow_neg]
    norm_num at atLeast ⊢
    linarith
  · have near := Int.ceil_lt_add_one (exact * 2 ^ 24)
    rw [zpow_neg]
    norm_num at near ⊢
    linarith

/--
The fraction at a part of a segment stays between zero and one. Its difference may be
rounded up, but not by as much as would take the sum nearer to the scalar behind one than
to one.
-/
theorem Rounds.between
    {first second part difference product result : Rat}
    (differs : Rounds (second - first) difference)
    (firstFits : Fits first)
    (differenceFits : Fits difference)
    (firstInUnit : 0 ≤ first ∧ first ≤ 1)
    (secondInUnit : 0 ≤ second ∧ second ≤ 1)
    (partInUnit : 0 ≤ part ∧ part ≤ 1)
    (scales : Rounds (difference * part) product)
    (moves : Rounds (first + product) result) :
    0 ≤ result ∧ result ≤ 1 := by
  obtain ⟨firstNonneg, firstAtMost⟩ := firstInUnit
  obtain ⟨secondNonneg, secondAtMost⟩ := secondInUnit
  obtain ⟨partNonneg, partAtMost⟩ := partInUnit
  have notBelow : -first ≤ difference :=
    differs.atLeast (-first) firstFits.neg (by linarith)
  have productNotBelow : -first ≤ product :=
    scales.atLeast (-first) firstFits.neg (by nlinarith)
  refine ⟨moves.atLeast 0 fits_zero (by linarith), moves.atMostOne ?_⟩
  rcases le_total 0 difference with isForward | isBackward
  · obtain ⟨scalar, scalarFits, notLess, near⟩ :=
      exists_fits_near (sub_nonneg.mpr firstAtMost)
        (sub_le_self 1 firstNonneg)
    have differenceAtMost : difference ≤ scalar :=
      differs.atMost scalar scalarFits (by linarith)
    have productAtMost : product ≤ difference :=
      scales.atMost difference differenceFits (by nlinarith)
    linarith
  · have productAtMost : product ≤ 0 :=
      scales.atMost 0 fits_zero (mul_nonpos_of_nonpos_of_nonneg isBackward partNonneg)
    have unit : (0 : Rat) < 1 / 2 ^ 24 := by
      positivity
    linarith

end Rationals

section Scalars

variable {first second : Float32} {left right : Rat}

/-- A scalar is a rational number. -/
def Holds
    (scalar : Float32)
    (exact : Rat) : Prop :=
  Denotes scalar.toModel.unpack exact

theorem holds_zero :
    Holds (Float32.ofBits 0x00000000) 0 :=
  Denotes.zero .positive

theorem holds_one :
    Holds (Float32.ofBits 0x3f800000) 1 := by
  have denotes :
      Denotes (.finite .positive (2 ^ 23) (-23) (Nat.two_pow_pos 23))
        ((2 ^ 23 : Nat) * 2 ^ (-23 : Int)) :=
    .finite (Nat.two_pow_pos 23) ⟨by decide, by decide, .inl (Nat.le_refl _)⟩
  have isOne : ((2 ^ 23 : Nat) : Rat) * 2 ^ (-23 : Int) = 1 := by
    norm_num
  rw [isOne] at denotes
  exact denotes

theorem le_iff_compare :
    first ≤ second ↔
      (first.toModel.unpack.compare second.toModel.unpack).any (·.isLE) =
        true := by
  change
    decide ((first.toModel.unpack.compare second.toModel.unpack).any
      (·.isLE) = true) = true ↔ _
  rw [decide_eq_true_iff]

/-- Scalars are ordered as rational numbers. -/
theorem Holds.le_iff
    (holdsFirst : Holds first left)
    (holdsSecond : Holds second right) :
    first ≤ second ↔ left ≤ right := by
  rw [le_iff_compare, Denotes.compare holdsFirst holdsSecond, Option.any_some,
    Ordering.isLE_iff_ne_gt]
  exact compare_le_iff_le

/-- A result that is not too large is packed as what it is rounded to. -/
theorem Computes.packed
    {value : UnpackedFloat}
    {exact : Rat}
    (computes : Computes value exact)
    (bounded : |exact| ≤ 2 ^ (127 : Int)) :
    Computes (unpack .binary32 (pack .binary32 value)) exact := by
  obtain ⟨result, denotes, rounds⟩ := computes
  exact
    ⟨result, denotes.unpack_pack (rounds.abs_result_le fits_largest bounded), rounds⟩

theorem Holds.add
    (holdsFirst : Holds first left)
    (holdsSecond : Holds second right)
    (bounded : |left + right| ≤ 2 ^ (127 : Int)) :
    ∃ result, Holds (first + second) result ∧ Rounds (left + right) result :=
  (Denotes.add holdsFirst holdsSecond).packed bounded

theorem Holds.sub
    (holdsFirst : Holds first left)
    (holdsSecond : Holds second right)
    (bounded : |left - right| ≤ 2 ^ (127 : Int)) :
    ∃ result, Holds (first - second) result ∧ Rounds (left - right) result :=
  (Denotes.sub holdsFirst holdsSecond).packed bounded

theorem Holds.mul
    (holdsFirst : Holds first left)
    (holdsSecond : Holds second right)
    (bounded : |left * right| ≤ 2 ^ (127 : Int)) :
    ∃ result, Holds (first * second) result ∧ Rounds (left * right) result :=
  (Denotes.mul holdsFirst holdsSecond).packed bounded

end Scalars

end Binary

namespace Scalar

/-- Laws under which the fractions of parts of a motion are fractions of the motion. -/
class LawfulUnit
    (S : Type)
    [Scalar S] : Prop
    extends LawfulOrder S where
  not_lt_of_le :
    ∀ {first second : S}, first ≤ second → ¬second < first
  between :
    ∀ {first second part : S},
      InUnit first → InUnit second → InUnit part →
        InUnit (first + (second - first) * part)

/-- Exact scalars stay between two others. -/
instance : LawfulUnit Rat where
  not_lt_of_le := not_lt_of_ge
  between {first second part} firstInUnit secondInUnit partInUnit := by
    have firstNonneg : (0 : Rat) ≤ first := firstInUnit.nonneg
    have firstAtMost : first ≤ (1 : Rat) := firstInUnit.atMostOne
    have secondNonneg : (0 : Rat) ≤ second := secondInUnit.nonneg
    have secondAtMost : second ≤ (1 : Rat) := secondInUnit.atMostOne
    have partNonneg : (0 : Rat) ≤ part := partInUnit.nonneg
    have partAtMost : part ≤ (1 : Rat) := partInUnit.atMostOne
    have weighted :
        first + (second - first) * part =
          first * (1 - part) + second * part := by
      ring
    rw [weighted]
    exact
      { nonneg := by
          change (0 : Rat) ≤ first * (1 - part) + second * part
          nlinarith
        atMostOne := by
          change first * (1 - part) + second * part ≤ (1 : Rat)
          nlinarith }

section Binary

open Binary

variable {value : Float32} {exact : Rat}

/-- What is between zero and one is neither infinite nor no number at all. -/
theorem InUnit.exists_holds
    (inUnit : InUnit value) :
    ∃ exact : Rat, Holds value exact := by
  have nonneg :
      ((UnpackedFloat.zero .positive).compare value.toModel.unpack).any
          (·.isLE) =
        true :=
    le_iff_compare.mp inUnit.nonneg
  have atMostOne :
      (value.toModel.unpack.compare
            (.finite .positive (2 ^ 23) (-23) (Nat.two_pow_pos 23))).any
          (·.isLE) =
        true :=
    le_iff_compare.mp inUnit.atMostOne
  unfold Holds
  cases unpacks : value.toModel.unpack with
  | infinity sign =>
      rw [unpacks] at nonneg atMostOne
      cases sign with
      | negative =>
          cases nonneg
      | positive =>
          cases atMostOne
  | notANumber =>
      rw [unpacks] at nonneg
      cases nonneg
  | zero sign =>
      exact ⟨0, .zero sign⟩
  | finite sign mantissa exponent positive =>
      exact ⟨_, .finite positive (canonical_unpack unpacks)⟩

theorem inUnit_iff
    (holds : Holds value exact) :
    InUnit value ↔ 0 ≤ exact ∧ exact ≤ 1 := by
  constructor
  · rintro ⟨nonneg, atMostOne⟩
    exact
      ⟨(holds_zero.le_iff holds).mp nonneg,
        (holds.le_iff holds_one).mp atMostOne⟩
  · rintro ⟨nonneg, atMostOne⟩
    exact
      ⟨(holds_zero.le_iff holds).mpr nonneg,
        (holds.le_iff holds_one).mpr atMostOne⟩

/-- Binary scalars stay between zero and one though they are rounded. -/
theorem InUnit.between
    {first second part : Float32}
    (firstInUnit : InUnit first)
    (secondInUnit : InUnit second)
    (partInUnit : InUnit part) :
    InUnit (first + (second - first) * part) := by
  obtain ⟨firstExact, holdsFirst⟩ := firstInUnit.exists_holds
  obtain ⟨secondExact, holdsSecond⟩ := secondInUnit.exists_holds
  obtain ⟨partExact, holdsPart⟩ := partInUnit.exists_holds
  rw [inUnit_iff holdsFirst] at firstInUnit
  rw [inUnit_iff holdsSecond] at secondInUnit
  rw [inUnit_iff holdsPart] at partInUnit
  -- None of the three results is too large to be packed.
  have large : (2 : Rat) ≤ 2 ^ (127 : Int) := by
    norm_num
  have differenceSmall : |secondExact - firstExact| ≤ 1 := by
    rw [abs_le]
    constructor <;> linarith
  obtain ⟨difference, holdsDifference, differs⟩ :=
    holdsSecond.sub holdsFirst (by linarith)
  have roundedSmall := differs.abs_result_le fits_one differenceSmall
  have productSmall : |difference * partExact| ≤ 1 := by
    rw [abs_mul, abs_of_nonneg partInUnit.1]
    exact mul_le_one₀ roundedSmall partInUnit.1 partInUnit.2
  obtain ⟨product, holdsProduct, scales⟩ :=
    holdsDifference.mul holdsPart (by linarith)
  have sumSmall : |firstExact + product| ≤ 2 := by
    have roundedProduct :=
      abs_le.mp (scales.abs_result_le fits_one productSmall)
    rw [abs_le]
    constructor <;> linarith
  obtain ⟨result, holdsResult, moves⟩ :=
    holdsFirst.add holdsProduct (by linarith)
  refine (inUnit_iff holdsResult).mpr ?_
  exact
    differs.between (Denotes.fits holdsFirst) (Denotes.fits holdsDifference)
      firstInUnit secondInUnit partInUnit scales moves

instance : LawfulUnit Float32 where
  not_lt_of_le {first second} atMost less := by
    obtain ⟨before, isBefore, after, isAfter, atMost⟩ :=
      float32_le_iff.mp atMost
    obtain ⟨other, isOther, another, isAnother, less⟩ :=
      float32_lt_iff.mp less
    cases Option.mem_unique isBefore isAnother
    cases Option.mem_unique isAfter isOther
    exact not_lt_of_ge atMost less
  between := InUnit.between

end Binary

end Scalar

end LevelCollision
