import Mathlib.Algebra.Order.Field.Rat
import Mathlib.Data.Nat.Cast.Order.Ring
import Mathlib.Data.Prod.Lex
import LevelCollision.Geometry.Scalar

namespace LevelCollision

/-!
# The order of scalars

Binary scalars are ordered like their places on a line, except that a value that is
not a number has no place and compares with nothing. The few laws of `LawfulOrder`
hold of them all the same, and of exact scalars too, so that what follows from these
laws holds whatever a scalar turns out to be.
-/

open Float.Model (UnpackedFloat)

namespace Scalar

/-- Laws of an order in which some values may compare with nothing. -/
class LawfulOrder
    (S : Type)
    [Scalar S] : Prop where
  lt_trans :
    ∀ {first second third : S},
      first < second → second < third → first < third
  lt_irrefl :
    ∀ value : S, ¬value < value
  le_of_lt :
    ∀ {first second : S}, first < second → first ≤ second
  le_trans :
    ∀ {first second third : S},
      first ≤ second → second ≤ third → first ≤ third
  /-- What is less than something is a number. -/
  beq_self_of_lt :
    ∀ {first second : S}, first < second → (first == first) = true
  /-- So is what something is less than. -/
  beq_self_of_gt :
    ∀ {first second : S}, first < second → (second == second) = true
  le_of_not_lt :
    ∀ {first second : S},
      (first == first) = true → (second == second) = true →
        ¬first < second → second ≤ first
  le_self :
    ∀ {value : S}, (value == value) = true → value ≤ value
  zero_lt_one :
    (0 : S) < 1
  one_beq_one :
    ((1 : S) == 1) = true

section Binary

/--
Where a binary value stands among all others. Finite values of one sign are ordered by
their exponents first and by their mantissas then.
-/
def place : UnpackedFloat → Option (Int ×ₗ Int ×ₗ Int)
  | .infinity .negative =>
      some (toLex (-2, toLex (0, 0)))
  | .finite .negative mantissa exponent _ =>
      some (toLex (-1, toLex (-exponent, -(mantissa : Int))))
  | .zero _ =>
      some (toLex (0, toLex (0, 0)))
  | .finite .positive mantissa exponent _ =>
      some (toLex (1, toLex (exponent, (mantissa : Int))))
  | .infinity .positive =>
      some (toLex (2, toLex (0, 0)))
  | .notANumber =>
      none

theorem compare_toLex
    (sign firstExponent secondExponent firstMantissa secondMantissa : Int) :
    compare (toLex (sign, toLex (firstExponent, firstMantissa)))
        (toLex (sign, toLex (secondExponent, secondMantissa))) =
      (compare firstExponent secondExponent).then
        (compare firstMantissa secondMantissa) := by
  have sameSign : compare sign sign = .eq :=
    compare_eq_iff_eq.mpr rfl
  simp only [Prod.Lex.compare_def, compareLex, compareOn, ofLex_toLex, sameSign]
  rfl

theorem compare_neg
    {R : Type}
    [AddCommGroup R] [LinearOrder R] [IsOrderedAddMonoid R]
    (first second : R) :
    compare (-first) (-second) = (compare first second).swap := by
  rw [← cmp_eq_compare, ← cmp_eq_compare, cmp_swap]
  exact StrictAnti.cmp_map_eq (fun _ _ => neg_lt_neg) first second

theorem compare_natCast
    (first second : Nat) :
    compare (first : Int) (second : Int) = compare first second := by
  rw [← cmp_eq_compare, ← cmp_eq_compare]
  exact Nat.strictMono_cast.cmp_map_eq first second

/-- Binary values compare as their places do. -/
theorem compare_eq_compare_place
    (first second : UnpackedFloat) :
    first.compare second =
      (place first).bind fun before =>
        (place second).map fun after => compare before after := by
  rcases first with (_ | _) | _ | _ | ⟨_ | _, _, _, _⟩ <;>
    rcases second with (_ | _) | _ | _ | ⟨_ | _, _, _, _⟩
  case finite.negative.finite.negative firstMantissa firstExponent _
      secondMantissa secondExponent _ =>
    change
      some
          ((compare firstExponent secondExponent).then
            (compare firstMantissa secondMantissa)).swap =
        some
          (compare
            (toLex ((-1 : Int), toLex (-firstExponent, -(firstMantissa : Int))))
            (toLex (-1, toLex (-secondExponent, -(secondMantissa : Int)))))
    rw [compare_toLex, compare_neg, compare_neg, compare_natCast,
      Ordering.swap_then]
  case finite.positive.finite.positive firstMantissa firstExponent _
      secondMantissa secondExponent _ =>
    change
      some
          ((compare firstExponent secondExponent).then
            (compare firstMantissa secondMantissa)) =
        some
          (compare (toLex ((1 : Int), toLex (firstExponent, (firstMantissa : Int))))
            (toLex (1, toLex (secondExponent, (secondMantissa : Int)))))
    rw [compare_toLex, compare_natCast]
  all_goals rfl

/-- The place of a binary scalar. -/
def placeOf
    (value : Float32) : Option (Int ×ₗ Int ×ₗ Int) :=
  place value.toModel.unpack

variable {first second : Float32}

theorem float32_lt_iff :
    first < second ↔
      ∃ before ∈ placeOf first, ∃ after ∈ placeOf second, before < after := by
  change
    decide ((first.toModel.unpack.compare second.toModel.unpack == some .lt) =
      true) = true ↔ _
  rw [decide_eq_true_iff, beq_iff_eq, compare_eq_compare_place]
  simp only [Option.bind_eq_some_iff, Option.map_eq_some_iff,
    compare_lt_iff_lt, Option.mem_def, placeOf]

theorem float32_le_iff :
    first ≤ second ↔
      ∃ before ∈ placeOf first, ∃ after ∈ placeOf second, before ≤ after := by
  change
    decide ((first.toModel.unpack.compare second.toModel.unpack).any
      (·.isLE) = true) = true ↔ _
  rw [decide_eq_true_iff, compare_eq_compare_place]
  unfold placeOf
  cases place first.toModel.unpack with
  | none =>
      simp
  | some before =>
      cases place second.toModel.unpack with
      | none =>
          simp
      | some after =>
          simp [Ordering.isLE_iff_ne_gt, compare_le_iff_le]

theorem float32_beq_iff :
    (first == second) = true ↔
      ∃ before ∈ placeOf first, before ∈ placeOf second := by
  change
    (first.toModel.unpack.compare second.toModel.unpack == some .eq) =
      true ↔ _
  rw [beq_iff_eq, compare_eq_compare_place]
  simp only [Option.bind_eq_some_iff, Option.map_eq_some_iff,
    compare_eq_iff_eq, Option.mem_def, placeOf, exists_eq_right']

/-- Binary scalars that are numbers are ordered as their places are. -/
instance : LawfulOrder Float32 where
  lt_trans := by
    intro first second third less lessAgain
    obtain ⟨before, isBefore, middle, isMiddle, less⟩ :=
      float32_lt_iff.mp less
    obtain ⟨other, isOther, after, isAfter, lessAgain⟩ :=
      float32_lt_iff.mp lessAgain
    cases Option.mem_unique isMiddle isOther
    exact
      float32_lt_iff.mpr
        ⟨before, isBefore, after, isAfter, lt_trans less lessAgain⟩
  lt_irrefl := by
    intro value less
    obtain ⟨before, isBefore, after, isAfter, less⟩ := float32_lt_iff.mp less
    cases Option.mem_unique isBefore isAfter
    exact lt_irrefl before less
  le_of_lt := by
    intro first second less
    obtain ⟨before, isBefore, after, isAfter, less⟩ := float32_lt_iff.mp less
    exact
      float32_le_iff.mpr ⟨before, isBefore, after, isAfter, le_of_lt less⟩
  le_trans := by
    intro first second third less lessAgain
    obtain ⟨before, isBefore, middle, isMiddle, less⟩ :=
      float32_le_iff.mp less
    obtain ⟨other, isOther, after, isAfter, lessAgain⟩ :=
      float32_le_iff.mp lessAgain
    cases Option.mem_unique isMiddle isOther
    exact
      float32_le_iff.mpr
        ⟨before, isBefore, after, isAfter, le_trans less lessAgain⟩
  beq_self_of_lt := by
    intro first second less
    obtain ⟨before, isBefore, -⟩ := float32_lt_iff.mp less
    exact float32_beq_iff.mpr ⟨before, isBefore, isBefore⟩
  beq_self_of_gt := by
    intro first second less
    obtain ⟨_, _, after, isAfter, _⟩ := float32_lt_iff.mp less
    exact float32_beq_iff.mpr ⟨after, isAfter, isAfter⟩
  le_of_not_lt := by
    intro first second firstIsNumber secondIsNumber notLess
    obtain ⟨before, isBefore, -⟩ := float32_beq_iff.mp firstIsNumber
    obtain ⟨after, isAfter, -⟩ := float32_beq_iff.mp secondIsNumber
    refine float32_le_iff.mpr ⟨after, isAfter, before, isBefore, ?_⟩
    exact
      not_lt.mp fun less =>
        notLess (float32_lt_iff.mpr ⟨before, isBefore, after, isAfter, less⟩)
  le_self := by
    intro value isNumber
    obtain ⟨before, isBefore, -⟩ := float32_beq_iff.mp isNumber
    exact float32_le_iff.mpr ⟨before, isBefore, before, isBefore, le_refl before⟩
  zero_lt_one := by
    decide
  one_beq_one := by
    decide

end Binary

/-- Every exact scalar is a number. -/
instance : LawfulOrder Rat where
  lt_trans := lt_trans
  lt_irrefl := lt_irrefl
  le_of_lt := le_of_lt
  le_trans := le_trans
  beq_self_of_lt _ := beq_self_eq_true _
  beq_self_of_gt _ := beq_self_eq_true _
  le_of_not_lt _ _ := not_lt.mp
  le_self _ := le_refl _
  zero_lt_one := zero_lt_one (α := Rat)
  one_beq_one := beq_self_eq_true _

section Fractions

variable {S : Type} [Scalar S] [LawfulOrder S]

theorem upper_zero
    (value : S) :
    upper 0 value = if 0 < value then value else 0 := by
  unfold upper
  exact if_pos (LawfulOrder.beq_self_of_lt LawfulOrder.zero_lt_one)

theorem zero_le_upper
    (value : S) :
    (0 : S) ≤ upper 0 value := by
  rw [upper_zero]
  split
  · exact LawfulOrder.le_of_lt ‹_›
  · exact
      LawfulOrder.le_self
        (LawfulOrder.beq_self_of_lt LawfulOrder.zero_lt_one)

/-- The larger of zero and any value is a number. -/
theorem beq_self_upper
    (value : S) :
    (upper 0 value == upper 0 value) = true := by
  rw [upper_zero]
  split
  · exact LawfulOrder.beq_self_of_gt ‹_›
  · exact LawfulOrder.beq_self_of_lt LawfulOrder.zero_lt_one

/-- A value that is a number is at most the larger of zero and it. -/
theorem le_upper
    {value : S}
    (isNumber : (value == value) = true) :
    value ≤ upper 0 value := by
  rw [upper_zero]
  split
  · exact LawfulOrder.le_self isNumber
  · exact
      LawfulOrder.le_of_not_lt
        (LawfulOrder.beq_self_of_lt LawfulOrder.zero_lt_one) isNumber ‹_›

/-- It is at most what is not negative and not less than the value. -/
theorem upper_le
    {value bound : S}
    (nonneg : (0 : S) ≤ bound)
    (atMost : value ≤ bound) :
    upper 0 value ≤ bound := by
  rw [upper_zero]
  split
  · exact atMost
  · exact nonneg

theorem upper_zero_lt_one
    {value : S}
    (less : value < 1) :
    upper 0 value < 1 := by
  rw [upper_zero]
  split
  · exact less
  · exact LawfulOrder.zero_lt_one

/-- A fraction of a motion. -/
structure InUnit
    {S : Type} [Scalar S]
    (value : S) : Prop where
  nonneg :
    0 ≤ value
  atMostOne :
    value ≤ 1

theorem inUnit_zero :
    InUnit (0 : S) where
  nonneg :=
    LawfulOrder.le_self (LawfulOrder.beq_self_of_lt LawfulOrder.zero_lt_one)
  atMostOne := LawfulOrder.le_of_lt LawfulOrder.zero_lt_one

theorem inUnit_one :
    InUnit (1 : S) where
  nonneg := LawfulOrder.le_of_lt LawfulOrder.zero_lt_one
  atMostOne := LawfulOrder.le_self LawfulOrder.one_beq_one

/-- Whatever a value is, it is moved into the range, if it is a number or not. -/
theorem inUnit_clampToUnit
    (value : S) :
    InUnit (clampToUnit value) := by
  have isNumber := beq_self_upper value
  unfold clampToUnit lower
  rw [if_pos isNumber]
  split
  · exact inUnit_one
  · rename_i notMore
    exact
      { nonneg := zero_le_upper value
        atMostOne :=
          LawfulOrder.le_of_not_lt LawfulOrder.one_beq_one isNumber notMore }

end Fractions

end Scalar

end LevelCollision
