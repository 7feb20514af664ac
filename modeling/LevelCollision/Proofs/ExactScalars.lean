import Mathlib.Analysis.SpecialFunctions.Trigonometric.Basic
import LevelCollision.Geometry.Angles

namespace LevelCollision

/-!
# Exact scalars

Exact scalars stand for real numbers and compute with them without rounding. Rational and
real numbers are such scalars. What is shown of the sine and the cosine of an angle rests on
their squares alone, and on what becomes of them when the angle is negated.
-/

/-- Scalars that stand for real numbers, with the arithmetic of these. -/
class ExactScalar
    (S : Type)
    [Scalar S] where
  /-- The number that a scalar stands for. -/
  real : S → ℝ
  real_injective : Function.Injective real
  real_zero : real 0 = 0
  real_one : real 1 = 1
  real_add : ∀ first second, real (first + second) = real first + real second
  real_sub : ∀ first second, real (first - second) = real first - real second
  real_mul : ∀ first second, real (first * second) = real first * real second
  real_neg : ∀ value, real (-value) = -real value

namespace ExactScalar

attribute [simp] real_zero real_one real_add real_sub real_mul real_neg

variable {S : Type} [Scalar S] [ExactScalar S]

/-- Scalars are equal if they stand for the same number. -/
theorem real_inj
    {first second : S} :
    real first = real second ↔ first = second :=
  real_injective.eq_iff

/-- A scalar that stands for zero is zero. -/
theorem real_eq_zero_iff
    {value : S} :
    real value = 0 ↔ value = 0 := by
  rw [← real_zero (S := S), real_inj]

end ExactScalar

instance : ExactScalar Rat where
  real value := value
  real_injective := Rat.cast_injective
  real_zero := Rat.cast_zero
  real_one := Rat.cast_one
  real_add := Rat.cast_add
  real_sub := Rat.cast_sub
  real_mul := Rat.cast_mul
  real_neg := Rat.cast_neg

/-- Real scalars, with the tolerances of the binary ones. -/
noncomputable instance : Scalar ℝ where
  zero := 0
  one := 1
  decLt := inferInstance
  decLe := inferInstance
  abs value := |value|
  sideEpsilon := 8589935 / 8589934592
  distEpsilon := 1 / 32

noncomputable instance : ExactScalar ℝ where
  real value := value
  real_injective := Function.injective_id
  real_zero := rfl
  real_one := rfl
  real_add _ _ := rfl
  real_sub _ _ := rfl
  real_mul _ _ := rfl
  real_neg _ := rfl

/-- The squares of the sine and the cosine of an angle add up to one. -/
class LawfulTrig
    (S : Type)
    [Scalar S] [Trig S] : Prop where
  sin_mul_sin_add_cos_mul_cos :
    ∀ angle : S,
      Trig.sin angle * Trig.sin angle + Trig.cos angle * Trig.cos angle = 1

/-- The sine is odd and the cosine is even. -/
class SymmetricTrig
    (S : Type)
    [Scalar S] [Trig S] : Prop
    extends LawfulTrig S where
  sin_neg :
    ∀ angle : S, Trig.sin (-angle) = -Trig.sin angle
  cos_neg :
    ∀ angle : S, Trig.cos (-angle) = Trig.cos angle

/-- The sine and the cosine of an angle in degrees. -/
noncomputable instance : Trig ℝ where
  sin degrees := Real.sin (degrees * (Real.pi / 180))
  cos degrees := Real.cos (degrees * (Real.pi / 180))

instance : SymmetricTrig ℝ where
  sin_mul_sin_add_cos_mul_cos degrees := by
    have squares := Real.sin_sq_add_cos_sq (degrees * (Real.pi / 180))
    rw [sq, sq] at squares
    exact squares
  sin_neg degrees := by
    change Real.sin (-degrees * (Real.pi / 180)) = -Real.sin (degrees * _)
    rw [neg_mul, Real.sin_neg]
  cos_neg degrees := by
    change Real.cos (-degrees * (Real.pi / 180)) = Real.cos (degrees * _)
    rw [neg_mul, Real.cos_neg]

end LevelCollision
