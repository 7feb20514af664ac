import Mathlib.Tactic.LinearCombination
import Mathlib.Tactic.MkIffOfInductiveProp
import LevelCollision.Proofs.ExactScalars
import LevelCollision.Sweep.Placement

namespace LevelCollision

/-!
# Rotations

An orientation turns a vector three times, by its yaw, its pitch and its roll, about one axis
each. A turn keeps the products of vectors, and so does an orientation. A turn is undone by
the turn back. The negated orientation turns back by the three angles too, but by the first of
them first, so that it undoes an orientation only if the order of the turns does not matter.
-/

open ExactScalar (real)

/-- The sine and the cosine by which a vector is turned about an axis. -/
structure Turn (S : Type) where
  sine : S
  cosine : S

namespace Vec3

/-- The vector across two others, as long as the area between them. -/
def cross
    {S : Type} [Scalar S]
    (left right : Vec3 S) : Vec3 S where
  x := left.y * right.z - left.z * right.y
  y := left.z * right.x - left.x * right.z
  z := left.x * right.y - left.y * right.x

theorem sub_eq
    {S : Type} [Scalar S]
    (first second : Vec3 S) :
    first - second =
      ⟨first.x - second.x, first.y - second.y, first.z - second.z⟩ :=
  rfl

/-- Vectors are equal if their components stand for the same numbers. -/
theorem eq_of_real_get
    {S : Type} [Scalar S] [ExactScalar S]
    {first second : Vec3 S}
    (same : ∀ axis, real (first.get axis) = real (second.get axis)) :
    first = second :=
  ext_get fun axis => ExactScalar.real_injective (same axis)

end Vec3

namespace Plane

variable {S : Type} [Scalar S]

/-- The direction along which distances from a plane are measured. -/
def direction
    (plane : Plane S) : Vec3 S :=
  match plane.kind.axis? with
  | some axis =>
      unit axis
  | none =>
      plane.normal

theorem dot_direction_sub_dist
    [ExactScalar S]
    (plane : Plane S)
    (point : Vec3 S) :
    point.dot plane.direction - plane.dist = plane.pointDist point := by
  cases isAxial : plane.kind.axis? with
  | some axis =>
      simp only [direction, pointDist, isAxial]
      apply ExactScalar.real_injective
      cases axis <;>
        simp [Vec3.dot, Vec3.get, unit]
  | none =>
      simp only [direction, pointDist, isAxial]

end Plane

namespace Turn

variable {S : Type}

/-- The turn by an angle. -/
def ofAngle
    [Trig S]
    (angle : S) : Turn S where
  sine := Trig.sin angle
  cosine := Trig.cos angle

variable [Scalar S]

/-- The turn by as much the other way. -/
def back
    (turn : Turn S) : Turn S where
  sine := -turn.sine
  cosine := turn.cosine

/-- The coordinates of a vector once the directions across an axis were turned. -/
def apply
    (turn : Turn S)
    (axis : Axis)
    (vector : Vec3 S) : Vec3 S :=
  match axis with
  | .x =>
      { x := vector.x
        y := turn.cosine * vector.y + turn.sine * vector.z
        z := turn.cosine * vector.z - turn.sine * vector.y }
  | .y =>
      { x := turn.cosine * vector.x - turn.sine * vector.z
        y := vector.y
        z := turn.cosine * vector.z + turn.sine * vector.x }
  | .z =>
      { x := turn.cosine * vector.x + turn.sine * vector.y
        y := turn.cosine * vector.y - turn.sine * vector.x
        z := vector.z }

/-- Sines and cosines by which lengths do not change. -/
def Proper
    (turn : Turn S) : Prop :=
  turn.sine * turn.sine + turn.cosine * turn.cosine = 1

theorem proper_ofAngle
    [Trig S] [LawfulTrig S]
    (angle : S) :
    (ofAngle angle).Proper :=
  LawfulTrig.sin_mul_sin_add_cos_mul_cos angle

/-- The turn by a negated angle is the turn back. -/
theorem ofAngle_neg
    [Trig S] [SymmetricTrig S]
    (angle : S) :
    ofAngle (-angle) = (ofAngle angle).back := by
  simp only [ofAngle, back, SymmetricTrig.sin_neg, SymmetricTrig.cos_neg]

variable [ExactScalar S] {turn : Turn S}

theorem Proper.real_squares
    (proper : turn.Proper) :
    real turn.sine * real turn.sine + real turn.cosine * real turn.cosine =
      1 := by
  have squares := congrArg real proper
  simpa using squares

/-- Turning back undoes a turn. -/
theorem Proper.back_apply_apply
    (proper : turn.Proper)
    (axis : Axis)
    (vector : Vec3 S) :
    turn.back.apply axis (turn.apply axis vector) = vector := by
  have squares := proper.real_squares
  apply Vec3.eq_of_real_get
  intro component
  cases axis <;> cases component <;>
    simp only [apply, back, Vec3.get, ExactScalar.real_add,
      ExactScalar.real_sub, ExactScalar.real_mul, ExactScalar.real_neg] <;>
    grind

theorem Proper.proper_back
    (proper : turn.Proper) :
    turn.back.Proper := by
  apply ExactScalar.real_injective
  have squares := proper.real_squares
  simpa [back] using squares

theorem back_back
    (turn : Turn S) :
    turn.back.back = turn := by
  have sine : - -turn.sine = turn.sine := by
    apply ExactScalar.real_injective
    simp
  simp only [back, sine]

/-- A turn undoes the turn back. -/
theorem Proper.apply_back_apply
    (proper : turn.Proper)
    (axis : Axis)
    (vector : Vec3 S) :
    turn.apply axis (turn.back.apply axis vector) = vector := by
  have undone := proper.proper_back.back_apply_apply axis vector
  rwa [back_back] at undone

/-- A turn keeps the dot product of two vectors. -/
theorem Proper.dot_apply
    (proper : turn.Proper)
    (axis : Axis)
    (first second : Vec3 S) :
    (turn.apply axis first).dot (turn.apply axis second) =
      first.dot second := by
  have squares := proper.real_squares
  apply ExactScalar.real_injective
  -- Across each axis the squares stand with the products of the other two coordinates.
  cases axis <;>
    simp only [apply, Vec3.dot, ExactScalar.real_add, ExactScalar.real_sub,
      ExactScalar.real_mul]
  · linear_combination
      (real first.y * real second.y + real first.z * real second.z) *
        squares
  · linear_combination
      (real first.x * real second.x + real first.z * real second.z) *
        squares
  · linear_combination
      (real first.x * real second.x + real first.y * real second.y) *
        squares

/-- A turn keeps the cross product of two vectors. -/
theorem Proper.cross_apply
    (proper : turn.Proper)
    (axis : Axis)
    (first second : Vec3 S) :
    (turn.apply axis first).cross (turn.apply axis second) =
      turn.apply axis (first.cross second) := by
  have squares := proper.real_squares
  apply Vec3.eq_of_real_get
  intro component
  cases axis <;> cases component <;>
    simp only [apply, Vec3.cross, Vec3.get, ExactScalar.real_add,
      ExactScalar.real_sub, ExactScalar.real_mul] <;>
    grind

/-- Turning the difference of two vectors turns both. -/
theorem apply_sub
    (turn : Turn S)
    (axis : Axis)
    (first second : Vec3 S) :
    turn.apply axis (first - second) =
      turn.apply axis first - turn.apply axis second := by
  apply Vec3.eq_of_real_get
  intro component
  simp only [Vec3.get_sub]
  cases axis <;> cases component <;>
    simp only [apply, Vec3.sub_eq, Vec3.get, ExactScalar.real_add,
      ExactScalar.real_sub, ExactScalar.real_mul] <;>
    ring

/-- A turn other than by half a round leaves two others no sine and the same cosine. -/
def Excludes
    (turn first second : Turn S) : Prop :=
  turn.sine ≠ 0 →
    first.sine = 0 ∧ second.sine = 0 ∧ first.cosine = second.cosine

theorem excludes_iff
    {first second : Turn S} :
    turn.Excludes first second ↔
      real turn.sine * real first.sine = 0 ∧
        real turn.sine * real second.sine = 0 ∧
          real turn.sine * (real first.cosine - real second.cosine) = 0 := by
  simp only [Excludes, mul_eq_zero, sub_eq_zero, ExactScalar.real_inj,
    ExactScalar.real_eq_zero_iff]
  by_cases none : turn.sine = 0
  · simp [none]
  · simp [none]

/-- Of turns back it is the same. -/
theorem excludes_back_iff
    {first second : Turn S} :
    turn.back.Excludes first.back second.back ↔
      turn.Excludes first second := by
  simp only [excludes_iff, back, ExactScalar.real_neg, neg_mul, mul_neg,
    neg_eq_zero]

variable {pitch yaw roll : Turn S}

/-- Turns about the three axes that come to the same in the opposite order. -/
def Reversible
    (pitch yaw roll : Turn S) : Prop :=
  ∀ vector : Vec3 S,
    roll.apply .x (pitch.apply .y (yaw.apply .z vector)) =
      yaw.apply .z (pitch.apply .y (roll.apply .x vector))

/-- What both orders make of the direction of one axis along another one. -/
theorem Reversible.entries
    (reversible : Reversible pitch yaw roll) :
    real roll.sine * real pitch.sine * real yaw.sine = 0 ∧
      real roll.sine * real pitch.sine * real yaw.cosine = 0 ∧
      real roll.cosine * real pitch.sine * real yaw.sine = 0 ∧
      real yaw.sine * real roll.sine = 0 ∧
      real pitch.sine * (real roll.cosine * real yaw.cosine - 1) = 0 ∧
      real yaw.sine * (real pitch.cosine - real roll.cosine) = 0 ∧
      real roll.sine * (real pitch.cosine - real yaw.cosine) = 0 := by
  have entry
      (axis component : Axis) :=
    congrArg (fun vector => real (vector.get component))
      (reversible (Plane.unit axis))
  have xy := entry .x .y
  have xz := entry .x .z
  have yx := entry .y .x
  have yy := entry .y .y
  have yz := entry .y .z
  have zx := entry .z .x
  have zy := entry .z .y
  simp only [apply, Vec3.get, Plane.unit, ExactScalar.real_zero,
    ExactScalar.real_one, ExactScalar.real_add, ExactScalar.real_sub,
    ExactScalar.real_mul, mul_zero, mul_one, zero_add, add_zero, zero_sub,
    sub_zero] at xy xz yx yy yz zx zy
  -- Entries across the diagonal are told apart by their sum and their difference.
  refine ⟨?_, ?_, ?_, ?_, ?_, ?_, ?_⟩
  · linear_combination yy / 2
  · linear_combination (xy - yx) / 2
  · linear_combination (yz - zy) / 2
  · linear_combination (xz - zx) / 2
  · linear_combination (xz + zx) / 2
  · linear_combination (xy + yx) / 2
  · linear_combination (yz + zy) / 2

/-- Of reversible turns none turns but halfway round, or the others are the same. -/
theorem Reversible.excludes
    (reversible : Reversible pitch yaw roll)
    (yawProper : yaw.Proper)
    (rollProper : roll.Proper) :
    pitch.Excludes yaw roll ∧
      yaw.Excludes pitch roll ∧ roll.Excludes pitch yaw := by
  obtain ⟨withYaw, withoutYaw, withoutRoll, yawRoll, halfTurns, yawHalf,
    rollHalf⟩ := reversible.entries
  have yawSquares := yawProper.real_squares
  have rollSquares := rollProper.real_squares
  simp only [excludes_iff]
  generalize real pitch.sine = sp, real pitch.cosine = cp,
    real yaw.sine = sy, real yaw.cosine = cy,
    real roll.sine = sr, real roll.cosine = cr at *
  have pitchRoll : sp * sr = 0 := by
    linear_combination sy * withYaw + cy * withoutYaw - sp * sr * yawSquares
  have pitchYaw : sp * sy = 0 := by
    linear_combination
      sr * withYaw + cr * withoutRoll - sp * sy * rollSquares
  have pitchHalf : sp * (cy - cr) = 0 := by
    linear_combination
      sp * cr * yawSquares - cy * halfTurns - sy * withoutRoll
  refine
    ⟨⟨pitchYaw, pitchRoll, pitchHalf⟩, ⟨?_, yawRoll, yawHalf⟩,
      ⟨?_, ?_, rollHalf⟩⟩
  · linear_combination pitchYaw
  · linear_combination pitchRoll
  · linear_combination yawRoll

/-- Turns that exclude each other can be made in either order. -/
theorem reversible_of_excludes
    (yawProper : yaw.Proper)
    (rollProper : roll.Proper)
    (pitchExcludes : pitch.Excludes yaw roll)
    (yawExcludes : yaw.Excludes pitch roll)
    (rollExcludes : roll.Excludes pitch yaw) :
    Reversible pitch yaw roll := by
  have yawSquares := yawProper.real_squares
  have rollSquares := rollProper.real_squares
  rw [excludes_iff] at pitchExcludes yawExcludes rollExcludes
  obtain ⟨pitchYaw, pitchRoll, pitchHalf⟩ := pitchExcludes
  obtain ⟨_, yawRoll, yawHalf⟩ := yawExcludes
  obtain ⟨_, _, rollHalf⟩ := rollExcludes
  intro vector
  apply Vec3.eq_of_real_get
  intro component
  cases component <;>
    simp only [apply, Vec3.get, ExactScalar.real_add, ExactScalar.real_sub,
      ExactScalar.real_mul]
  all_goals
    generalize real pitch.sine = sp, real pitch.cosine = cp,
      real yaw.sine = sy, real yaw.cosine = cy,
      real roll.sine = sr, real roll.cosine = cr,
      real vector.x = x, real vector.y = y, real vector.z = z at *
    grind

/--
Turns about the three axes can be made in either order if none of them turns anything but
half the way round, or only one does so and the others are the same.
-/
theorem reversible_iff
    (yawProper : yaw.Proper)
    (rollProper : roll.Proper) :
    Reversible pitch yaw roll ↔
      pitch.Excludes yaw roll ∧
        yaw.Excludes pitch roll ∧ roll.Excludes pitch yaw := by
  constructor
  · intro reversible
    exact reversible.excludes yawProper rollProper
  · rintro ⟨pitchExcludes, yawExcludes, rollExcludes⟩
    exact
      reversible_of_excludes yawProper rollProper pitchExcludes yawExcludes
        rollExcludes

end Turn

namespace Angles

variable {S : Type} [Scalar S] [ExactScalar S]

theorem neg_neg
    (angles : Angles S) :
    - -angles = angles := by
  have twice
      (angle : S) :
      - -angle = angle := by
    apply ExactScalar.real_injective
    simp
  exact
    congr (congrArg₂ Angles.mk (twice angles.pitch) (twice angles.yaw))
      (twice angles.roll)

variable [Trig S]

/-- An orientation turns by its yaw first, then by its pitch and last by its roll. -/
theorem rotate_eq_apply
    (angles : Angles S)
    (vector : Vec3 S) :
    angles.rotate vector =
      (Turn.ofAngle angles.roll).apply .x
        ((Turn.ofAngle angles.pitch).apply .y
          ((Turn.ofAngle angles.yaw).apply .z vector)) := by
  apply Vec3.eq_of_real_get
  intro component
  cases component <;>
    simp only [rotate, Frame.coordinates, frame, Turn.apply, Turn.ofAngle, Vec3.dot,
      Vec3.get, ExactScalar.real_add, ExactScalar.real_sub,
      ExactScalar.real_mul, ExactScalar.real_neg] <;>
    ring

/-- The turns of an orientation in the opposite order. -/
def rotateReversed
    (angles : Angles S)
    (vector : Vec3 S) : Vec3 S :=
  (Turn.ofAngle angles.yaw).apply .z
    ((Turn.ofAngle angles.pitch).apply .y
      ((Turn.ofAngle angles.roll).apply .x vector))

/-- An orientation that turns vectors about one axis, or halfway round about some. -/
@[mk_iff] structure TurnsOnce
    (angles : Angles S) : Prop where
  pitch :
    (Turn.ofAngle angles.pitch).Excludes (.ofAngle angles.yaw)
      (.ofAngle angles.roll)
  yaw :
    (Turn.ofAngle angles.yaw).Excludes (.ofAngle angles.pitch)
      (.ofAngle angles.roll)
  roll :
    (Turn.ofAngle angles.roll).Excludes (.ofAngle angles.pitch)
      (.ofAngle angles.yaw)

/-- The plane across the rotated direction of another, as far from the origin. -/
def rotatePlane
    (angles : Angles S)
    (plane : Plane S) : Plane S :=
  .ofNormal (angles.rotate plane.direction) plane.dist .general

section Products

variable [LawfulTrig S]

theorem dot_rotate
    (angles : Angles S)
    (first second : Vec3 S) :
    (angles.rotate first).dot (angles.rotate second) = first.dot second := by
  simp only [rotate_eq_apply, (Turn.proper_ofAngle _).dot_apply]

theorem cross_rotate
    (angles : Angles S)
    (first second : Vec3 S) :
    (angles.rotate first).cross (angles.rotate second) =
      angles.rotate (first.cross second) := by
  simp only [rotate_eq_apply, (Turn.proper_ofAngle _).cross_apply]

/-- A point is as far from a plane when both are rotated. -/
theorem pointDist_rotatePlane
    (angles : Angles S)
    (plane : Plane S)
    (point : Vec3 S) :
    (angles.rotatePlane plane).pointDist (angles.rotate point) =
      plane.pointDist point := by
  rw [← plane.dot_direction_sub_dist, ← angles.dot_rotate]
  rfl

end Products

/-- Rotating the difference of two vectors rotates both. -/
theorem rotate_sub
    (angles : Angles S)
    (first second : Vec3 S) :
    angles.rotate (first - second) =
      angles.rotate first - angles.rotate second := by
  simp only [rotate_eq_apply, Turn.apply_sub]

/-- The way of a motion is the same from every origin, and is rotated with a head. -/
theorem stop_sub_start_motionToLocal
    (angles : Angles S)
    (origin : Vec3 S)
    (head : Head S)
    (motion : Motion S) :
    let placement : Placement S := ⟨origin, angles⟩
    let there := placement.motionToLocal head motion
    there.stop - there.start =
      if placement.turns head then
        angles.rotate (motion.stop - motion.start)
      else
        motion.stop - motion.start := by
  have sameWay :
      motion.stop - origin - (motion.start - origin) =
        motion.stop - motion.start := by
    apply Vec3.eq_of_real_get
    intro axis
    simp only [Vec3.get_sub, ExactScalar.real_sub]
    ring
  dsimp only [Placement.motionToLocal, Placement.toLocal]
  split
  · rw [← rotate_sub, sameWay]
  · exact sameWay

/--
Rotating two vectors changes neither their dot product nor what their cross product is to
them. So a motion that is put in the coordinates of a head is as long as it was, and a plane
that is rotated with a point is as far from it.
-/
theorem rotate_keeps_products
    [LawfulTrig S]
    (angles : Angles S)
    (first second : Vec3 S) :
    (angles.rotate first).dot (angles.rotate second) = first.dot second ∧
      (angles.rotate first).cross (angles.rotate second) =
        angles.rotate (first.cross second) ∧
      (∀ plane : Plane S,
        (angles.rotatePlane plane).pointDist (angles.rotate first) =
          plane.pointDist first) ∧
      ∀ (origin : Vec3 S) (head : Head S) (motion : Motion S),
        let placement : Placement S := ⟨origin, angles⟩
        let there := placement.motionToLocal head motion
        (there.stop - there.start).dot (there.stop - there.start) =
          (motion.stop - motion.start).dot (motion.stop - motion.start) := by
  refine
    ⟨angles.dot_rotate first second, angles.cross_rotate first second,
      fun plane => angles.pointDist_rotatePlane plane first, ?_⟩
  intro origin head motion
  dsimp only
  rw [stop_sub_start_motionToLocal angles origin head motion]
  split
  · exact angles.dot_rotate _ _
  · rfl

/-- Sines and cosines by the tangent of half the angle, which is one for a right angle. -/
@[reducible] def halfTangents : Trig Rat where
  sin degrees :=
    2 * (degrees / 90) / (1 + (degrees / 90) * (degrees / 90))
  cos degrees :=
    (1 - (degrees / 90) * (degrees / 90)) /
      (1 + (degrees / 90) * (degrees / 90))

theorem lawful_halfTangents :
    @LawfulTrig Rat _ halfTangents := by
  refine @LawfulTrig.mk Rat _ halfTangents fun degrees => ?_
  have notZero : 1 + degrees / 90 * (degrees / 90) ≠ 0 := by
    have notNegative := mul_self_nonneg (degrees / 90)
    linarith
  change
    2 * (degrees / 90) / (1 + degrees / 90 * (degrees / 90)) *
          (2 * (degrees / 90) / (1 + degrees / 90 * (degrees / 90))) +
        (1 - degrees / 90 * (degrees / 90)) /
            (1 + degrees / 90 * (degrees / 90)) *
          ((1 - degrees / 90 * (degrees / 90)) /
            (1 + degrees / 90 * (degrees / 90))) =
      1
  field_simp
  ring

theorem rotate_keeps_products_slanted :
    letI := halfTangents
    let angles : Angles Rat := ⟨30, 60, 45⟩
    (angles.rotate ⟨1, 2, 3⟩).dot (angles.rotate ⟨4, 5, 6⟩) = 32 ∧
      (angles.rotate ⟨1, 2, 3⟩).cross (angles.rotate ⟨4, 5, 6⟩) =
        angles.rotate ⟨-3, 6, -3⟩ := by
  let _ := halfTangents
  obtain ⟨dot, cross, _⟩ :=
    @rotate_keeps_products Rat _ _ halfTangents lawful_halfTangents
      ⟨30, 60, 45⟩ ⟨1, 2, 3⟩ ⟨4, 5, 6⟩
  have product :
      (⟨1, 2, 3⟩ : Vec3 Rat).dot ⟨4, 5, 6⟩ = 32 := by
    decide +kernel
  have across :
      (⟨1, 2, 3⟩ : Vec3 Rat).cross ⟨4, 5, 6⟩ = ⟨-3, 6, -3⟩ := by
    decide +kernel
  exact ⟨dot.trans product, across ▸ cross⟩

section Reversal

variable [SymmetricTrig S]

/-- The negated orientation turns back by the yaw first and by the roll last. -/
theorem rotate_neg
    (angles : Angles S)
    (vector : Vec3 S) :
    (-angles).rotate vector =
      (Turn.ofAngle angles.roll).back.apply .x
        ((Turn.ofAngle angles.pitch).back.apply .y
          ((Turn.ofAngle angles.yaw).back.apply .z vector)) := by
  simp only [rotate_eq_apply, ← Turn.ofAngle_neg]
  rfl

/-- It undoes the turns in the opposite order. -/
theorem rotate_neg_eq_iff
    {angles : Angles S}
    {vector rotated : Vec3 S} :
    (-angles).rotate rotated = vector ↔
      rotated = angles.rotateReversed vector := by
  rw [rotate_neg, rotateReversed]
  constructor
  · rintro rfl
    simp only [(Turn.proper_ofAngle _).apply_back_apply]
  · rintro rfl
    simp only [(Turn.proper_ofAngle _).back_apply_apply]

/-- Turning back undoes an orientation if the order of its turns does not matter. -/
theorem forall_rotate_neg_rotate_iff
    {angles : Angles S} :
    (∀ vector, (-angles).rotate (angles.rotate vector) = vector) ↔
      angles.TurnsOnce := by
  simp only [rotate_neg_eq_iff]
  simp only [rotate_eq_apply, rotateReversed, turnsOnce_iff]
  exact
    Turn.reversible_iff (Turn.proper_ofAngle _) (Turn.proper_ofAngle _)

/-- An orientation turns once if its negation does. -/
theorem turnsOnce_neg_iff
    {angles : Angles S} :
    (-angles).TurnsOnce ↔ angles.TurnsOnce := by
  have pitch :
      Turn.ofAngle (-angles).pitch = (Turn.ofAngle angles.pitch).back :=
    Turn.ofAngle_neg angles.pitch
  have yaw :
      Turn.ofAngle (-angles).yaw = (Turn.ofAngle angles.yaw).back :=
    Turn.ofAngle_neg angles.yaw
  have roll :
      Turn.ofAngle (-angles).roll = (Turn.ofAngle angles.roll).back :=
    Turn.ofAngle_neg angles.roll
  simp only [turnsOnce_iff, pitch, yaw, roll, Turn.excludes_back_iff]

/--
The negated orientation undoes an orientation for all vectors only if the order of its turns
does not matter: there is one angle at most that turns a vector by something else than half
the way round, and the other two are alike. It is then too that a plane which was hit has,
in the world, the normal that stands for the one it has in the model.
-/
theorem rotate_neg_rotate_iff
    (angles : Angles S) :
    ((∀ vector, (-angles).rotate (angles.rotate vector) = vector) ↔
        angles.TurnsOnce) ∧
      ((∀ (origin : Vec3 S) (plane : Plane S),
          let placement : Placement S := ⟨origin, angles⟩
          angles.rotate (placement.planeToWorld plane).normal =
            plane.normal) ↔
        angles.TurnsOnce) := by
  refine ⟨forall_rotate_neg_rotate_iff, ?_⟩
  rw [← turnsOnce_neg_iff, ← forall_rotate_neg_rotate_iff, neg_neg]
  constructor
  · intro stands normal
    exact stands Vec3.zero (.ofNormal normal 0 .general)
  · intro undone _ plane
    exact undone plane.normal

theorem rotate_neg_rotate_yaw_not_pitch :
    (∀ vector : Vec3 ℝ,
        (-(⟨0, 35, 0⟩ : Angles ℝ)).rotate
          ((⟨0, 35, 0⟩ : Angles ℝ).rotate vector) = vector) ∧
      ¬ ∀ vector : Vec3 ℝ,
        (-(⟨90, 90, 0⟩ : Angles ℝ)).rotate
          ((⟨90, 90, 0⟩ : Angles ℝ).rotate vector) = vector := by
  have noSine : Trig.sin (0 : ℝ) = 0 := by
    simp [Trig.sin]
  have fullSine : Trig.sin (90 : ℝ) = 1 := by
    have quarter : (90 : ℝ) * (Real.pi / 180) = Real.pi / 2 := by
      ring
    simp only [Trig.sin, quarter, Real.sin_pi_div_two]
  constructor
  · refine (rotate_neg_rotate_iff _).1.mpr ⟨?_, ?_, ?_⟩
    · exact fun turned => absurd noSine turned
    · exact fun _ => ⟨noSine, noSine, rfl⟩
    · exact fun turned => absurd noSine turned
  · intro undone
    have once := (rotate_neg_rotate_iff _).1.mp undone
    have turned : Trig.sin (90 : ℝ) ≠ 0 := by
      rw [fullSine]
      exact one_ne_zero
    exact turned (once.pitch turned).1

end Reversal

end Angles

end LevelCollision
