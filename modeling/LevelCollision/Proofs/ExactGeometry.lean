import Mathlib.Algebra.Order.Field.Rat
import Mathlib.Algebra.Order.Ring.Abs
import Mathlib.Tactic.Linarith
import Mathlib.Tactic.Ring
import LevelCollision.Sweep.Walk

namespace LevelCollision

/-!
# Geometry in exact arithmetic

Over the rational numbers the operations of scalars are the usual ones. Distances
from a plane then change evenly along a line, and every point of a moving box is at
most as far from the box's point, along the normal, as the box reaches.
-/

namespace Scalar

variable {value part first second : Rat}

theorem abs_eq
    (value : Rat) :
    Scalar.abs value = |value| := by
  change (if value < 0 then -value else value) = |value|
  split
  · rw [abs_of_neg ‹_›]
  · rw [abs_of_nonneg (not_lt.mp ‹_›)]

theorem upper_eq
    (first second : Rat) :
    upper first second = max first second := by
  unfold upper
  rw [if_pos (beq_self_eq_true first)]
  split
  · rw [max_eq_right (le_of_lt ‹_›)]
  · rw [max_eq_left (not_lt.mp ‹_›)]

theorem lower_eq
    (first second : Rat) :
    lower first second = min first second := by
  unfold lower
  rw [if_pos (beq_self_eq_true first)]
  split
  · rw [min_eq_right (le_of_lt ‹_›)]
  · rw [min_eq_left (not_lt.mp ‹_›)]

theorem clampToUnit_eq
    (value : Rat) :
    clampToUnit value = min (max 0 value) 1 := by
  rw [clampToUnit, upper_eq, lower_eq]

theorem le_clampToUnit
    (atMostOne : part ≤ 1)
    (atMost : part ≤ value) :
    part ≤ clampToUnit value := by
  rw [clampToUnit_eq]
  exact le_min (le_max_of_le_right atMost) atMostOne

theorem clampToUnit_le
    (nonneg : 0 ≤ part)
    (atLeast : value ≤ part) :
    clampToUnit value ≤ part := by
  rw [clampToUnit_eq]
  exact min_le_of_left_le (max_le nonneg atLeast)

end Scalar

namespace Vec3

theorem dot_add
    (first second normal : Vec3 Rat) :
    (first + second).dot normal = first.dot normal + second.dot normal := by
  change
    (first.x + second.x) * normal.x + (first.y + second.y) * normal.y +
        (first.z + second.z) * normal.z =
      first.x * normal.x + first.y * normal.y + first.z * normal.z +
        (second.x * normal.x + second.y * normal.y + second.z * normal.z)
  ring

theorem dot_neg
    (within normal : Vec3 Rat) :
    within.dot (-normal) = -within.dot normal := by
  change
    within.x * -normal.x + within.y * -normal.y + within.z * -normal.z =
      -(within.x * normal.x + within.y * normal.y + within.z * normal.z)
  ring

theorem dot_unit
    (within : Vec3 Rat)
    (axis : Axis) :
    within.dot (Plane.unit axis) = within.get axis := by
  cases axis <;> simp [dot, Plane.unit, get]

theorem dot_between
    (first second normal : Vec3 Rat)
    (part : Rat) :
    (first + (second - first).scale part).dot normal =
      first.dot normal +
        part * (second.dot normal - first.dot normal) := by
  change
    (first.x + (second.x - first.x) * part) * normal.x +
        (first.y + (second.y - first.y) * part) * normal.y +
        (first.z + (second.z - first.z) * part) * normal.z =
      first.x * normal.x + first.y * normal.y + first.z * normal.z +
        part *
          (second.x * normal.x + second.y * normal.y + second.z * normal.z -
            (first.x * normal.x + first.y * normal.y + first.z * normal.z))
  ring

theorem coincides_iff
    {left right : Vec3 Rat} :
    left.coincides right = true ↔ left = right := by
  cases left
  cases right
  simp only [coincides, Bool.and_eq_true, beq_iff_eq, mk.injEq, and_assoc]

theorem abs_dot_le
    {within reach : Vec3 Rat}
    (reaches : ∀ axis, |within.get axis| ≤ reach.get axis)
    (normal : Vec3 Rat) :
    |within.dot normal| ≤
      |reach.x * normal.x| + |reach.y * normal.y| + |reach.z * normal.z| := by
  have component
      (axis : Axis) :
      |within.get axis * normal.get axis| ≤
        |reach.get axis * normal.get axis| := by
    rw [abs_mul, abs_mul]
    exact
      mul_le_mul_of_nonneg_right
        (le_trans (reaches axis) (le_abs_self _)) (abs_nonneg _)
  calc |within.dot normal|
      ≤ |within.x * normal.x + within.y * normal.y| +
          |within.z * normal.z| :=
        abs_add_le _ _
    _ ≤ |within.x * normal.x| + |within.y * normal.y| +
          |within.z * normal.z| :=
        add_le_add_left (abs_add_le _ _) _
    _ ≤ |reach.x * normal.x| + |reach.y * normal.y| +
          |reach.z * normal.z| :=
        add_le_add
          (add_le_add (component .x) (component .y)) (component .z)

end Vec3

namespace Plane

/-- Distances change evenly along a line. -/
theorem pointDist_between
    (plane : Plane Rat)
    (first second : Vec3 Rat)
    (part : Rat) :
    plane.pointDist (first + (second - first).scale part) =
      plane.pointDist first +
        part * (plane.pointDist second - plane.pointDist first) := by
  unfold pointDist
  cases plane.kind.axis? with
  | some axis =>
      simp only [Vec3.get_add, Vec3.get_scale, Vec3.get_sub]
      ring
  | none =>
      simp only [Vec3.dot_between]
      ring

/-- How far a displacement leads away from a plane. -/
def rise
    (plane : Plane Rat)
    (within : Vec3 Rat) : Rat :=
  match plane.kind.axis? with
  | some axis => within.get axis
  | none => within.dot plane.normal

theorem pointDist_add
    (plane : Plane Rat)
    (point within : Vec3 Rat) :
    plane.pointDist (point + within) =
      plane.pointDist point + plane.rise within := by
  unfold pointDist rise
  cases plane.kind.axis? with
  | some axis =>
      simp only [Vec3.get_add]
      ring
  | none =>
      simp only [Vec3.dot_add]
      ring

theorem pointSide_eq_front
    {plane : Plane Rat}
    {point : Vec3 Rat}
    (inFront : 0 ≤ plane.pointDist point) :
    plane.pointSide point = .front :=
  if_pos inFront

theorem pointSide_eq_back
    {plane : Plane Rat}
    {point : Vec3 Rat}
    (behind : plane.pointDist point < 0) :
    plane.pointSide point = .back :=
  if_neg (not_le.mpr behind)

end Plane

/-- A displacement lies in a box. -/
def Box.Contains
    (box : Box Rat)
    (within : Vec3 Rat) : Prop :=
  ∀ axis,
    box.mins.get axis ≤ within.get axis ∧
      within.get axis ≤ box.maxs.get axis

namespace Motion

variable {motion : Motion Rat} {within : Vec3 Rat}

/-- A point of the box is no farther from its centre than the box reaches. -/
theorem abs_get_le_reach
    (inBox : motion.box.Contains within)
    (axis : Axis) :
    |within.get axis| ≤ motion.reach.get axis := by
  obtain ⟨least, most⟩ := inBox axis
  unfold reach
  by_cases point : motion.isPoint = true
  · obtain ⟨mins, maxs⟩ := Bool.and_eq_true_iff.mp point
    rw [Vec3.coincides_iff.mp mins] at least
    rw [Vec3.coincides_iff.mp maxs] at most
    rw [if_pos point, le_antisymm most least]
    change |(Vec3.splat 0).get axis| ≤ (Vec3.splat 0).get axis
    rw [Vec3.get_splat]
    exact le_of_eq abs_zero
  · rw [if_neg point, Vec3.get_zipWith, Vec3.get_neg, Scalar.upper_eq]
    refine abs_le.mpr ⟨?_, le_max_of_le_right most⟩
    have reaches :
        -motion.box.mins.get axis ≤
          max (-motion.box.mins.get axis) (motion.box.maxs.get axis) :=
      le_max_left _ _
    linarith

/-- No point of the box rises farther from a plane than the box reaches. -/
theorem abs_rise_le_offset
    (inBox : motion.box.Contains within)
    (plane : Plane Rat) :
    |plane.rise within| ≤ motion.offset plane := by
  unfold Plane.rise offset
  cases plane.kind.axis? with
  | some axis =>
      exact abs_get_le_reach inBox axis
  | none =>
      have reaches :=
        Vec3.abs_dot_le (abs_get_le_reach inBox) plane.normal
      by_cases point : motion.isPoint = true
      · simp only [point, ↓reduceIte]
        rw [reach, if_pos point] at reaches
        simpa [Vec3.zero, Vec3.splat] using reaches
      · simp only [point, Scalar.abs_eq]
        exact reaches

end Motion

end LevelCollision
