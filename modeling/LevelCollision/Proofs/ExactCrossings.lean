import LevelCollision.Proofs.Retraces
import LevelCollision.Proofs.SweepSegments

namespace LevelCollision

/-!
# Crossings in exact arithmetic

In exact arithmetic the distances of a moving box from the faces of a brush change evenly
along the motion. A box that is anywhere on its way more than `distEpsilon` behind all
faces, and that started in front of one, has entered the brush before, and so it was
stopped.
-/

namespace Motion

variable {motion : Motion Rat} {face : Face Rat} {place : Rat}

/-- A point is met like a box without extent. -/
theorem metDist_eq
    (motion : Motion Rat)
    (face : Face Rat) :
    motion.metDist face = motion.pushedDist face.plane := by
  unfold metDist
  split
  · rename_i point
    obtain ⟨mins, maxs⟩ := Bool.and_eq_true_iff.mp point
    have noCorner : motion.deepestCorner face.plane = Vec3.zero := by
      rw [deepestCorner, Vec3.coincides_iff.mp mins,
        Vec3.coincides_iff.mp maxs]
      refine Vec3.ext_get fun axis => ?_
      rw [Vec3.get_zipWith, Vec3.get_zipWith]
      exact ite_self _
    have noDepth : (Vec3.zero : Vec3 Rat).dot face.plane.normal = 0 := by
      change
        (0 : Rat) * face.plane.normal.x + 0 * face.plane.normal.y +
          0 * face.plane.normal.z = 0
      ring
    rw [pushedDist, noCorner, noDepth, sub_zero]
  · rfl

/-- Distance of the box in front of a face at a place of the motion. -/
def distAt
    (motion : Motion Rat)
    (face : Face Rat)
    (place : Rat) : Rat :=
  motion.startDist face +
    place * (motion.stopDist face - motion.startDist face)

theorem distAt_eq
    (motion : Motion Rat)
    (face : Face Rat)
    (place : Rat) :
    motion.distAt face place =
      (motion.pointAt place).dot face.plane.normal -
        motion.pushedDist face.plane := by
  rw [distAt, startDist, stopDist, metDist_eq, pointAt, Vec3.dot_between]
  ring

theorem distAt_zero
    (motion : Motion Rat)
    (face : Face Rat) :
    motion.distAt face 0 = motion.startDist face := by
  rw [distAt, zero_mul, add_zero]

/-- The box is more than `distEpsilon` behind all of these faces at a place. -/
def DeepBehind
    (motion : Motion Rat)
    (faces : List (Face Rat))
    (place : Rat) : Prop :=
  ∀ face ∈ faces, motion.distAt face place < -Scalar.distEpsilon

end Motion

namespace Crossing

variable {motion : Motion Rat} {faces : List (Face Rat)} {face : Face Rat}
variable {crossing before after : Crossing Rat} {place : Rat}

/-- What is known about a brush which a box is deep inside of at a place. -/
structure Reaches
    (crossing : Crossing Rat)
    (place : Rat) : Prop where
  enter :
    crossing.enter < place
  leave :
    place ≤ crossing.leave
  outside :
    crossing.startOutside = true → -1 < crossing.enter

/-- A face in front of which the motion starts has been entered before. -/
theorem entry_of_deep
    (atMostOne : place ≤ 1)
    (deep : motion.distAt face place < -Scalar.distEpsilon)
    (approaches : motion.stopDist face < motion.startDist face) :
    (motion.startDist face - Scalar.distEpsilon) /
          (motion.startDist face - motion.stopDist face) <
        place ∧
      (0 < motion.startDist face →
        -1 <
          (motion.startDist face - Scalar.distEpsilon) /
            (motion.startDist face - motion.stopDist face)) := by
  have positive := Scalar.distEpsilon_pos
  have length : 0 < motion.startDist face - motion.stopDist face :=
    sub_pos.mpr approaches
  unfold Motion.distAt at deep
  constructor
  · rw [div_lt_iff₀ length]
    linarith
  · intro inFront
    have partly :=
      mul_le_of_le_one_left (le_of_lt length) atMostOne
    rw [lt_div_iff₀ length]
    linarith

/-- A face towards whose front the motion leads has not been left yet. -/
theorem exit_of_deep
    (deep : motion.distAt face place < -Scalar.distEpsilon)
    (recedes : motion.startDist face < motion.stopDist face) :
    place <
      (motion.startDist face + Scalar.distEpsilon) /
        (motion.startDist face - motion.stopDist face) := by
  unfold Motion.distAt at deep
  rw [lt_div_iff_of_neg (sub_neg.mpr recedes)]
  linarith

/-- A face that the box is deep behind at a place keeps what is known of the brush. -/
theorem Reaches.meet?
    (reaches : before.Reaches place)
    (atMostOne : place ≤ 1)
    (deep : motion.distAt face place < -Scalar.distEpsilon)
    (met : before.meet? motion face = some after) :
    after.Reaches place := by
  obtain ⟨notAhead, rfl⟩ := meet?_eq_some_iff.mp met
  dsimp only [meet]
  split
  · rename_i bothBehind
    have notInFront := not_lt.mpr bothBehind.1
    exact
      { enter := reaches.enter
        leave := reaches.leave
        outside := by
          simpa [notInFront] using reaches.outside }
  · rename_i notBehind
    split
    · rename_i approaches
      obtain ⟨entersBefore, entersAfterStart⟩ :=
        entry_of_deep atMostOne deep approaches
      split
      · rename_i later
        exact
          { enter := entersBefore
            leave := reaches.leave
            outside := by
              intro outside
              rw [Bool.or_eq_true, decide_eq_true_eq] at outside
              rcases outside with outsideBefore | inFront
              · exact lt_trans (reaches.outside outsideBefore) later
              · exact entersAfterStart inFront }
      · rename_i notLater
        exact
          { enter := reaches.enter
            leave := reaches.leave
            outside := by
              intro outside
              rw [Bool.or_eq_true, decide_eq_true_eq] at outside
              rcases outside with outsideBefore | inFront
              · exact reaches.outside outsideBefore
              · exact
                  lt_of_lt_of_le (entersAfterStart inFront)
                    (not_lt.mp notLater) }
    · rename_i notApproaches
      have notInFront : ¬0 < motion.startDist face :=
        fun inFront => notAhead ⟨inFront, not_lt.mp notApproaches⟩
      have recedes : motion.startDist face < motion.stopDist face := by
        refine lt_of_le_of_lt (not_lt.mp notInFront) ?_
        exact not_le.mp fun behind => notBehind ⟨not_lt.mp notInFront, behind⟩
      have notLeft := exit_of_deep deep recedes
      split
      · exact
          { enter := reaches.enter
            leave := le_of_lt notLeft
            outside := by
              simpa [notInFront] using reaches.outside }
      · exact
          { enter := reaches.enter
            leave := reaches.leave
            outside := by
              simpa [notInFront] using reaches.outside }

/-- A brush which a box is deep inside of at a place is met, and entered before. -/
theorem exists_reaches
    (nonneg : 0 ≤ place)
    (atMostOne : place ≤ 1)
    (deep : motion.DeepBehind faces place) :
    ∃ crossing,
      ofFaces? motion faces = some crossing ∧ crossing.Reaches place := by
  rcases ofFaces?_cases motion faces with
      ⟨crossing, met⟩ | ⟨face, member, before, unmet⟩
  · refine
      ⟨crossing, met,
        holds_of_ofFaces? (fun crossing => crossing.Reaches place) met ?_ ?_⟩
    · exact
        { enter := lt_of_lt_of_le (neg_lt_zero.mpr one_pos) nonneg
          leave := atMostOne
          outside := by
            intro outside
            cases outside }
    · intro face member before after metFace reaches
      exact reaches.meet? atMostOne (deep face member) metFace
  · have positive := Scalar.distEpsilon_pos
    have deepHere := deep face member
    obtain ⟨inFront, ahead⟩ : 0 < motion.startDist face ∧
        motion.startDist face ≤ motion.stopDist face := by
      by_contra notAhead
      rw [meet?_eq_some_iff.mpr ⟨notAhead, rfl⟩] at unmet
      cases unmet
    have further := mul_nonneg nonneg (sub_nonneg.mpr ahead)
    unfold Motion.distAt at deepHere
    linarith

end Crossing

namespace Trace

variable {trace : Trace Rat} {motion : Motion Rat} {faces : List (Face Rat)}
variable {place : Rat} {contents : Contents} {leaf : Nat}

/--
A motion that is clipped to a brush, and starts in front of a face, is nowhere deep inside
of the brush before it is stopped.
-/
theorem Measured.not_deepBehind_of_clip
    (measured : trace.Measured)
    (startsInFront : ∃ face ∈ faces, 0 < motion.startDist face)
    (nonneg : 0 ≤ place)
    (atMostOne : place ≤ 1)
    (unstopped :
      place ≤ (trace.clip motion contents faces leaf).fraction) :
    ¬motion.DeepBehind faces place := by
  intro deep
  obtain ⟨crossing, met, reaches⟩ :=
    Crossing.exists_reaches nonneg atMostOne deep
  have outside : crossing.startOutside = true :=
    (Crossing.startOutside_iff met).mpr startsInFront
  have counts : crossing.Counts :=
    ⟨reaches.outside outside,
      lt_of_lt_of_le reaches.enter reaches.leave⟩
  have notBefore : place ≤ max 0 crossing.enter := by
    have stopped :
        (trace.clip motion contents faces leaf).fraction ≤
          Scalar.upper 0 crossing.enter :=
      measured.clip_le met counts
    rw [Scalar.upper_eq] at stopped
    exact le_trans unstopped stopped
  have atStart : place = 0 := by
    rcases le_max_iff.mp notBefore with atMostZero | notAfter
    · exact le_antisymm atMostZero nonneg
    · exact absurd reaches.enter (not_lt.mpr notAfter)
  obtain ⟨front, member, inFront⟩ := startsInFront
  have deepHere := deep front member
  rw [atStart, Motion.distAt_zero] at deepHere
  have positive := Scalar.distEpsilon_pos
  linarith

/-- So is a motion that met nothing before, if it does not start inside of the brush. -/
theorem not_deepBehind_of_clip
    {endPoint : Vec3 Rat}
    (notSolid :
      ((unobstructed endPoint).clip motion contents faces leaf).startSolid =
        false)
    (nonneg : 0 ≤ place)
    (atMostOne : place ≤ 1)
    (unstopped :
      place ≤
        ((unobstructed endPoint).clip motion contents faces leaf).fraction) :
    ¬motion.DeepBehind faces place := by
  have notInside : ¬motion.StartsInside faces := by
    intro inside
    have solid :=
      (startSolid_clip (unobstructed endPoint) motion contents faces
        leaf).mpr (.inr inside)
    rw [notSolid] at solid
    cases solid
  have startsInFront : ∃ face ∈ faces, 0 < motion.startDist face := by
    simpa [Motion.StartsInside] using notInside
  exact
    (measured_unobstructed endPoint).not_deepBehind_of_clip startsInFront
      nonneg atMostOne unstopped

end Trace

end LevelCollision
