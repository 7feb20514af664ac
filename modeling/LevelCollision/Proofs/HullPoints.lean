import LevelCollision.Proofs.FloodFaults
import LevelCollision.Proofs.HullTrees
import LevelCollision.Proofs.ScalarDifferences
import LevelCollision.Proofs.TouchedLeaves

namespace LevelCollision

/-!
# Points in box hulls

A point on a plane belongs to its front. In front of the upper bounds of a box is the
outside of its hull, and in front of the lower bounds is the inside. So the hull takes
the points on the lower faces of its box and leaves out those on the upper ones.
-/

/-- Every component of a vector is finite. -/
def Vec3.Finite
    (vector : Vec3 Float32) : Prop :=
  ∀ axis, (vector.get axis).isFinite = true

/-- A point is in a box and on none of its upper faces. -/
def Box.Takes
    {S : Type} [Scalar S]
    (box : Box S)
    (point : Vec3 S) : Prop :=
  ∀ axis,
    box.mins.get axis ≤ point.get axis ∧ point.get axis < box.maxs.get axis

instance
    (holds : Axis → Prop)
    [DecidablePred holds] : Decidable (∀ axis, holds axis) :=
  decidable_of_iff (holds .x ∧ holds .y ∧ holds .z) <| by
    constructor
    · rintro ⟨alongX, alongY, alongZ⟩ (_ | _ | _)
      · exact alongX
      · exact alongY
      · exact alongZ
    · intro along
      exact ⟨along .x, along .y, along .z⟩

instance
    (vector : Vec3 Float32) : Decidable vector.Finite :=
  inferInstanceAs (Decidable (∀ _, _ = _))

instance
    {S : Type} [Scalar S]
    (box : Box S)
    (point : Vec3 S) : Decidable (box.Takes point) :=
  inferInstanceAs (Decidable (∀ _, _ ∧ _))

namespace BoxHull

variable {bounds : Box Float32} {point : Vec3 Float32} {face : Nat}

/-- In front of a face's plane are the points that are not less than its bound. -/
theorem pointSide_eq_front_iff
    (finiteBound : (faceBound bounds face).isFinite = true)
    (finitePoint : point.Finite) :
    (facePlane bounds face).pointSide point = .front ↔
      faceBound bounds face ≤ point.get (faceAxis face) := by
  have dist :
      (facePlane bounds face).pointDist point =
        point.get (faceAxis face) - faceBound bounds face := rfl
  rw [← Scalar.zero_le_sub_iff (finitePoint _) finiteBound, ← dist,
    Plane.pointSide]
  split
  · exact iff_of_true rfl ‹_›
  · exact iff_of_false Side.noConfusion ‹_›

theorem finite_faceBound
    (finiteMins : bounds.mins.Finite)
    (finiteMaxs : bounds.maxs.Finite)
    (face : Nat) :
    (faceBound bounds face).isFinite = true := by
  unfold faceBound
  split
  · exact finiteMaxs _
  · exact finiteMins _

/-- A face lies across an axis at a bound and has its outside on a side. -/
structure FaceOf
    (bounds : Box Float32)
    (face : Nat)
    (axis : Axis)
    (side : Side)
    (bound : Float32) : Prop where
  isFace : face < faceCount
  isOutside : outside face = side
  onAxis : faceAxis face = axis
  bound : faceBound bounds face = bound

/-- Each axis has its two faces. -/
theorem faces_of_axis
    (bounds : Box Float32)
    (axis : Axis) :
    ∃ upper lower,
      FaceOf bounds upper axis .front (bounds.maxs.get axis) ∧
        FaceOf bounds lower axis .back (bounds.mins.get axis) := by
  cases axis
  · exact ⟨0, 1, ⟨by decide, rfl, rfl, rfl⟩, ⟨by decide, rfl, rfl, rfl⟩⟩
  · exact ⟨2, 3, ⟨by decide, rfl, rfl, rfl⟩, ⟨by decide, rfl, rfl, rfl⟩⟩
  · exact ⟨4, 5, ⟨by decide, rfl, rfl, rfl⟩, ⟨by decide, rfl, rfl, rfl⟩⟩

/-- The points that a box takes are those inside of all its faces. -/
theorem takes_iff_inside
    (finiteMins : bounds.mins.Finite)
    (finiteMaxs : bounds.maxs.Finite)
    (finitePoint : point.Finite) :
    bounds.Takes point ↔
      ∀ face < faceCount,
        (facePlane bounds face).pointSide point =
          (outside face).opposite := by
  have inFront (face : Nat) :=
    pointSide_eq_front_iff (finite_faceBound finiteMins finiteMaxs face)
      finitePoint
  constructor
  · intro takes face _
    obtain ⟨afterMins, beforeMaxs⟩ := takes (faceAxis face)
    cases isOutside : outside face with
    | front =>
        have bound :
            faceBound bounds face = bounds.maxs.get (faceAxis face) := by
          rw [faceBound, isOutside]
        refine Side.eq_opposite_of_ne ?_
        rw [ne_eq, inFront face, bound]
        exact (Scalar.lt_iff_not_le (finitePoint _) (finiteMaxs _)).mp beforeMaxs
    | back =>
        have bound :
            faceBound bounds face = bounds.mins.get (faceAxis face) := by
          rw [faceBound, isOutside]
        refine (inFront face).mpr ?_
        rw [bound]
        exact afterMins
  · intro inside axis
    obtain ⟨upper, lower, upperFace, lowerFace⟩ := faces_of_axis bounds axis
    constructor
    · have inFrontOfLower := inside lower lowerFace.isFace
      rw [lowerFace.isOutside] at inFrontOfLower
      have atLeast := (inFront lower).mp inFrontOfLower
      rw [lowerFace.bound, lowerFace.onAxis] at atLeast
      exact atLeast
    · refine (Scalar.lt_iff_not_le (finitePoint _) (finiteMaxs _)).mpr ?_
      rw [← upperFace.bound, ← upperFace.onAxis, ← inFront upper,
        inside upper upperFace.isFace, upperFace.isOutside]
      exact Side.noConfusion

/-- A point that a box does not take is outside of one of its faces. -/
theorem exists_outside_of_not_takes
    (finiteMins : bounds.mins.Finite)
    (finiteMaxs : bounds.maxs.Finite)
    (finitePoint : point.Finite)
    (notTaken : ¬bounds.Takes point) :
    ∃ face < faceCount,
      (facePlane bounds face).pointSide point = outside face := by
  rw [takes_iff_inside finiteMins finiteMaxs finitePoint] at notTaken
  push Not at notTaken
  obtain ⟨face, isFace, notInside⟩ := notTaken
  refine ⟨face, isFace, ?_⟩
  rw [Side.eq_opposite_of_ne notInside, Side.opposite_opposite]

end BoxHull

namespace Level

variable {level : Level Float32} {bounds : Box Float32} {point : Vec3 Float32}

/-- A walk through a hull may go past all of its faces. -/
theorem faceCount_le_depthBound
    (level : Level Float32)
    (bounds : Box Float32) :
    BoxHull.faceCount ≤ 0 + (level.tree (.box bounds)).depthBound := by
  rw [Tree.depthBound, records_tree, Records.size_nodes_withBoxHull]
  omega

theorem pointLeaf_of_takes
    (finiteMins : bounds.mins.Finite)
    (finiteMaxs : bounds.maxs.Finite)
    (finitePoint : point.Finite)
    (takes : bounds.Takes point) :
    (level.tree (.box bounds)).pointLeaf point =
      .ok (BoxHull.leafId level.own) :=
  BoxHull.descend_of_inside
    ((BoxHull.takes_iff_inside finiteMins finiteMaxs finitePoint).mp takes)
    (Nat.zero_le _) (faceCount_le_depthBound level bounds)

theorem pointLeaf_of_not_takes
    (finiteMins : bounds.mins.Finite)
    (finiteMaxs : bounds.maxs.Finite)
    (finitePoint : point.Finite)
    (notTaken : ¬bounds.Takes point) :
    (level.tree (.box bounds)).pointLeaf point = .ok level.emptyLeaf := by
  obtain ⟨face, isFace, isOutside⟩ :=
    BoxHull.exists_outside_of_not_takes finiteMins finiteMaxs finitePoint
      notTaken
  exact
    BoxHull.descend_of_outside isOutside isFace (Nat.zero_le _)
      (faceCount_le_depthBound level bounds)

/-- Inside there is a monster, and outside there is nothing. -/
theorem pointContents_box
    (sound : level.Sound)
    (finiteMins : bounds.mins.Finite)
    (finiteMaxs : bounds.maxs.Finite)
    (finitePoint : point.Finite) :
    (level.tree (.box bounds)).pointContents point =
      .ok (if bounds.Takes point then .monster else .empty) := by
  rw [Tree.pointContents]
  split
  · rename_i takes
    rw [pointLeaf_of_takes finiteMins finiteMaxs finitePoint takes, ok_bind,
      BoxHull.leaf_tree, ok_bind]
    rfl
  · rename_i notTaken
    obtain ⟨entry, found, isEmpty⟩ := sound.emptyLeaf
    rw [pointLeaf_of_not_takes finiteMins finiteMaxs finitePoint notTaken,
      ok_bind, BoxHull.ownLeaf_tree found, ok_bind, isEmpty]
    rfl

end Level

namespace World

/--
A point is in the leaf of a box's hull if and only if the box takes it: on each axis it is
not less than the lower bound and less than the upper one. Every other point is in the
level's empty leaf. So there is a monster at the points that the box takes and nothing
at the others, in whatever level.
-/
theorem pointContents_boxHull
    {world : World Float32}
    {bounds : Box Float32}
    {point : Vec3 Float32}
    (origin :
      world.level = .empty ∨
        ∃ bytes, (Level.read bytes).outcome = .ok world.level)
    (finiteMins : bounds.mins.Finite)
    (finiteMaxs : bounds.maxs.Finite)
    (finitePoint : point.Finite) :
    (world.pointLeaf (.box bounds) point =
          .ok (BoxHull.leafId world.level.own) ↔
        bounds.Takes point) ∧
      (¬bounds.Takes point →
        world.pointLeaf (.box bounds) point = .ok world.level.emptyLeaf) ∧
      ∃ after,
        world.pointContents (.box bounds) point =
          .ok (if bounds.Takes point then .monster else .empty, after) := by
  have sound := Level.sound_of_origin origin
  have outer
      (notTaken : ¬bounds.Takes point) :
      world.pointLeaf (.box bounds) point = .ok world.level.emptyLeaf :=
    Level.pointLeaf_of_not_takes finiteMins finiteMaxs finitePoint notTaken
  refine ⟨⟨?_, ?_⟩, outer, ?_⟩
  · intro inHull
    by_contra notTaken
    rw [outer notTaken, Except.ok.injEq] at inHull
    exact Nat.ne_of_lt sound.emptyLeaf_lt inHull
  · exact Level.pointLeaf_of_takes finiteMins finiteMaxs finitePoint
  · rw [pointContents,
      Level.pointContents_box sound finiteMins finiteMaxs finitePoint]
    exact ⟨_, rfl⟩

/-- A cube around the origin. -/
def aroundOrigin : Box Float32 where
  mins := Vec3.splat (-1)
  maxs := Vec3.splat 1

/--
Among the two rooms the hull of the cube has its lower corner inside and its upper corner
outside.
-/
theorem pointContents_boxHull_doorway :
    ∃ world : World Float32,
      (Level.read Stored.Level.doorway.packed).outcome = .ok world.level ∧
        (∃ after,
          world.pointContents (.box aroundOrigin) aroundOrigin.mins =
            .ok (.monster, after)) ∧
        ∃ after,
          world.pointContents (.box aroundOrigin) aroundOrigin.maxs =
            .ok (.empty, after) := by
  have run :
      ((Level.read Stored.Level.doorway.packed).outcome.toOption.bind
        fun level => (World.ofLevel level).toOption.map fun _ => ()) =
        some () := by
    decide +kernel
  simp only [Option.bind_eq_some_iff, Option.map_eq_some_iff,
    toOption_eq_some_iff] at run
  obtain ⟨level, accepted, world, loaded, -⟩ := run
  cases level_of_ofLevel loaded
  have lowerFinite : aroundOrigin.mins.Finite := by
    decide +kernel
  have upperFinite : aroundOrigin.maxs.Finite := by
    decide +kernel
  have takesLower : aroundOrigin.Takes aroundOrigin.mins := by
    decide +kernel
  have leavesUpper : ¬aroundOrigin.Takes aroundOrigin.maxs := by
    decide +kernel
  obtain ⟨_, _, atLower⟩ :=
    pointContents_boxHull (.inr ⟨_, accepted⟩) lowerFinite upperFinite
      lowerFinite
  obtain ⟨_, _, atUpper⟩ :=
    pointContents_boxHull (.inr ⟨_, accepted⟩) lowerFinite upperFinite
      upperFinite
  rw [if_pos takesLower] at atLower
  rw [if_neg leavesUpper] at atUpper
  exact ⟨world, accepted, atLower, atUpper⟩

end World

end LevelCollision
