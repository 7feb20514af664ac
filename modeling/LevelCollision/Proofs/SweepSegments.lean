import Mathlib.Algebra.Order.Field.Basic
import LevelCollision.Proofs.ExactGeometry
import LevelCollision.Proofs.ScalarOrder

namespace LevelCollision

/-!
# Segments of a motion in exact arithmetic

Every segment that a sweep walks lies on its motion, and a node hands each of its
places on: a point of the moving box that is at least `distEpsilon` away from the
plane is on the side to which the walk takes the place where the box is then.
-/

theorem Scalar.distEpsilon_pos :
    (0 : Rat) < Scalar.distEpsilon := by
  change (0 : Rat) < 1 / 32
  norm_num

section Splits

variable {S : Type} [Scalar S] [Scalar.LawfulOrder S]

/-- Both parts of a segment that is split begin and end inside it. -/
theorem Split.inUnit_ofDists
    (before after offset : S) :
    Scalar.InUnit (ofDists before after offset).nearStop ∧
      Scalar.InUnit (ofDists before after offset).farStart := by
  unfold ofDists
  split
  · exact ⟨Scalar.inUnit_clampToUnit _, Scalar.inUnit_clampToUnit _⟩
  · split
    · exact ⟨Scalar.inUnit_clampToUnit _, Scalar.inUnit_clampToUnit _⟩
    · exact ⟨Scalar.inUnit_one, Scalar.inUnit_zero⟩

theorem Segment.inUnit_of_route
    {segment : Segment S}
    {motion : Motion S}
    {plane : Plane S}
    {split : Split S}
    (route : segment.route motion plane = .parts split) :
    Scalar.InUnit split.nearStop ∧ Scalar.InUnit split.farStart := by
  simp only [Segment.route] at route
  split at route
  · cases route
  · split at route
    · cases route
    · cases route
      exact Split.inUnit_ofDists _ _ _

end Splits

section Positions

variable (motion : Motion Rat) (place : Rat)

/-- Where a motion is at a place of its way, between its start and its stop. -/
def Motion.position : Vec3 Rat where
  x := motion.start.x + place * (motion.stop.x - motion.start.x)
  y := motion.start.y + place * (motion.stop.y - motion.start.y)
  z := motion.start.z + place * (motion.stop.z - motion.start.z)

theorem Motion.get_position
    (axis : Axis) :
    (motion.position place).get axis =
      motion.start.get axis +
        place * (motion.stop.get axis - motion.start.get axis) := by
  cases axis <;> rfl

theorem Motion.pointAt_eq_position :
    motion.pointAt place = motion.position place := by
  refine Vec3.ext_get fun axis => ?_
  rw [pointAt, Vec3.get_add, Vec3.get_scale, Vec3.get_sub, get_position,
    mul_comm]

end Positions

namespace Segment

/-- A segment that lies on a motion and leads the same way. -/
structure LiesOn
    (segment : Segment Rat)
    (motion : Motion Rat) : Prop where
  fromPoint :
    segment.fromPoint = motion.pointAt segment.fromFraction
  toPoint :
    segment.toPoint = motion.pointAt segment.toFraction
  forwards :
    segment.fromFraction ≤ segment.toFraction

variable {segment : Segment Rat} {motion : Motion Rat} {part place : Rat}

theorem liesOn_segment
    (motion : Motion Rat) :
    motion.segment.LiesOn motion where
  fromPoint := by
    refine Vec3.ext_get fun axis => ?_
    simp only [Motion.segment, Motion.pointAt, Vec3.get_add, Vec3.get_scale,
      Vec3.get_sub]
    ring
  toPoint := by
    refine Vec3.ext_get fun axis => ?_
    simp only [Motion.segment, Motion.pointAt, Vec3.get_add, Vec3.get_scale,
      Vec3.get_sub]
    ring
  forwards := by
    change (0 : Rat) ≤ 1
    exact zero_le_one

theorem LiesOn.pointAt
    (liesOn : segment.LiesOn motion)
    (part : Rat) :
    segment.pointAt part = motion.pointAt (segment.fractionAt part) := by
  refine Vec3.ext_get fun axis => ?_
  rw [Segment.pointAt, liesOn.fromPoint, liesOn.toPoint]
  simp only [Motion.pointAt, fractionAt, Vec3.get_add, Vec3.get_scale,
    Vec3.get_sub]
  ring

theorem LiesOn.upTo
    (liesOn : segment.LiesOn motion)
    (nonneg : 0 ≤ part) :
    (segment.upTo part).LiesOn motion where
  fromPoint := liesOn.fromPoint
  toPoint := liesOn.pointAt part
  forwards := by
    have forwards := liesOn.forwards
    change
      segment.fromFraction ≤
        segment.fromFraction +
          (segment.toFraction - segment.fromFraction) * part
    have along :=
      mul_nonneg (sub_nonneg.mpr forwards) nonneg
    linarith

theorem LiesOn.onwards
    (liesOn : segment.LiesOn motion)
    (atMostOne : part ≤ 1) :
    (segment.onwards part).LiesOn motion where
  fromPoint := liesOn.pointAt part
  toPoint := liesOn.toPoint
  forwards := by
    have forwards := liesOn.forwards
    change
      segment.fromFraction +
          (segment.toFraction - segment.fromFraction) * part ≤
        segment.toFraction
    have along :=
      mul_le_of_le_one_right (sub_nonneg.mpr forwards) atMostOne
    linarith

/-- Every place between the ends of a segment is at some part of it. -/
theorem exists_part
    (afterFrom : segment.fromFraction ≤ place)
    (beforeTo : place ≤ segment.toFraction) :
    ∃ part,
      0 ≤ part ∧ part ≤ 1 ∧ segment.fractionAt part = place := by
  by_cases point : segment.fromFraction = segment.toFraction
  · refine ⟨0, le_refl 0, zero_le_one, ?_⟩
    unfold fractionAt
    linarith
  · have forwards : 0 < segment.toFraction - segment.fromFraction :=
      sub_pos.mpr
        (lt_of_le_of_ne (le_trans afterFrom beforeTo) point)
    refine
      ⟨(place - segment.fromFraction) /
          (segment.toFraction - segment.fromFraction),
        div_nonneg (sub_nonneg.mpr afterFrom) (le_of_lt forwards),
        (div_le_one forwards).mpr (sub_le_sub_right beforeTo _), ?_⟩
    rw [fractionAt, mul_div_cancel₀ _ (ne_of_gt forwards)]
    ring

end Segment

namespace Split

variable {before after offset dist part : Rat}

/--
A point that is clear of the plane is on the near side only before the near part
stops, and on the far side only after the far part starts.
-/
theorem ofDists_covers
    (nonneg : 0 ≤ part)
    (atMostOne : part ≤ 1)
    (close : |dist - (before + part * (after - before))| ≤ offset)
    (clear : Scalar.distEpsilon ≤ |dist|) :
    let split := ofDists before after offset
    let side := if 0 ≤ dist then Side.front else Side.back
    side = split.near ∧ part ≤ split.nearStop ∨
      side = split.near.opposite ∧ split.farStart ≤ part := by
  have positive := Scalar.distEpsilon_pos
  obtain ⟨above, below⟩ := abs_le.mp close
  unfold ofDists
  by_cases inFront : 0 ≤ dist
  · rw [abs_of_nonneg inFront] at clear
    simp only [inFront, ↓reduceIte]
    by_cases approaches : before < after
    · simp only [approaches, ↓reduceIte]
      refine .inr ⟨rfl, Scalar.clampToUnit_le nonneg ?_⟩
      rw [mul_one_div, div_le_iff_of_neg (sub_neg.mpr approaches)]
      linarith
    · by_cases recedes : after < before
      · simp only [approaches, recedes, ↓reduceIte]
        refine .inl ⟨trivial, Scalar.le_clampToUnit atMostOne ?_⟩
        rw [mul_one_div, le_div_iff₀ (sub_pos.mpr recedes)]
        linarith
      · simp only [approaches, recedes, ↓reduceIte]
        exact .inl ⟨trivial, atMostOne⟩
  · rw [abs_of_neg (not_le.mp inFront)] at clear
    simp only [inFront, ↓reduceIte]
    by_cases approaches : before < after
    · simp only [approaches, ↓reduceIte]
      refine .inl ⟨trivial, Scalar.le_clampToUnit atMostOne ?_⟩
      rw [mul_one_div, le_div_iff_of_neg (sub_neg.mpr approaches)]
      linarith
    · by_cases recedes : after < before
      · simp only [approaches, recedes, ↓reduceIte]
        refine .inr ⟨rfl, Scalar.clampToUnit_le nonneg ?_⟩
        rw [mul_one_div, div_le_iff₀ (sub_pos.mpr recedes)]
        linarith
      · simp only [approaches, recedes, ↓reduceIte]
        exact .inr ⟨rfl, nonneg⟩

end Split

end LevelCollision
