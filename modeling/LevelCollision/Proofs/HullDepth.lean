import LevelCollision.Proofs.ExactCrossings
import LevelCollision.Proofs.HullTrees
import LevelCollision.Proofs.SweepCoverage
import LevelCollision.World

namespace LevelCollision

/-!
# No motion goes deep into a box hull

In exact arithmetic a moving box that does not start inside a box hull is nowhere on its
way more than `distEpsilon` inside of it. Wherever the box would be so deep, one of its
points descends to the leaf of the hull and stays clear of the faces on its way, so that
the sweep comes to that leaf. There the motion is clipped to the brush of the hull, which
stops it before.
-/

/-- A vector has on each axis what there is to have. -/
theorem Vec3.exists_get
    {α : Type}
    {holds : Axis → α → Prop}
    (each : ∀ axis, ∃ value, holds axis value) :
    ∃ vector : Vec3 α, ∀ axis, holds axis (vector.get axis) := by
  obtain ⟨x, holdsX⟩ := each .x
  obtain ⟨y, holdsY⟩ := each .y
  obtain ⟨z, holdsZ⟩ := each .z
  refine ⟨⟨x, y, z⟩, fun axis => ?_⟩
  cases axis with
  | x =>
      exact holdsX
  | y =>
      exact holdsY
  | z =>
      exact holdsZ

namespace Motion

variable {motion : Motion Rat} {bounds : Box Rat} {place : Rat}

section Faces

theorem get_deepestCorner
    (motion : Motion Rat)
    (plane : Plane Rat)
    (axis : Axis) :
    (motion.deepestCorner plane).get axis =
      if plane.normal.get axis < 0 then
        motion.box.maxs.get axis
      else
        motion.box.mins.get axis := by
  rw [deepestCorner, Vec3.get_zipWith, Vec3.get_zipWith]

theorem get_unit
    (axis : Axis) :
    (Plane.unit axis : Vec3 Rat).get axis = 1 := by
  cases axis <;> rfl

/-- An upper bound is pushed out by what the box reaches below its point. -/
theorem pushedDist_axial
    (motion : Motion Rat)
    (axis : Axis)
    (bound : Rat) :
    motion.pushedDist (Plane.axial axis bound) =
      bound - motion.box.mins.get axis := by
  have normal : (Plane.axial axis bound).normal = Plane.unit axis := rfl
  have notNegative : ¬(1 : Rat) < 0 := not_lt.mpr zero_le_one
  rw [pushedDist, normal, Vec3.dot_unit, get_deepestCorner, normal, get_unit,
    if_neg notNegative]
  rfl

/-- A lower bound is pushed out by what the box reaches above its point. -/
theorem pushedDist_opposite
    (motion : Motion Rat)
    (axis : Axis)
    (bound : Rat) :
    motion.pushedDist (Plane.axial axis bound).opposite =
      motion.box.maxs.get axis - bound := by
  have normal :
      (Plane.axial axis bound).opposite.normal = -Plane.unit axis := rfl
  have dist : (Plane.axial axis bound).opposite.dist = -bound := rfl
  have negative : -(1 : Rat) < 0 := neg_lt_zero.mpr one_pos
  rw [pushedDist, normal, dist, Vec3.dot_neg, Vec3.dot_unit,
    get_deepestCorner, normal, Vec3.get_neg, get_unit, if_pos negative]
  ring

/-- How far the box at a point is in front of a plane that looks out of the bounds. -/
theorem dist_outwardPlane
    (motion : Motion Rat)
    (bounds : Box Rat)
    (face : Nat)
    (point : Vec3 Rat) :
    point.dot (BoxHull.outwardPlane bounds face).normal -
        motion.pushedDist (BoxHull.outwardPlane bounds face) =
      match BoxHull.outside face with
      | .front =>
          point.get (BoxHull.faceAxis face) +
              motion.box.mins.get (BoxHull.faceAxis face) -
            BoxHull.faceBound bounds face
      | .back =>
          BoxHull.faceBound bounds face -
            (point.get (BoxHull.faceAxis face) +
              motion.box.maxs.get (BoxHull.faceAxis face)) := by
  have normal
      (axis : Axis)
      (bound : Rat) :
      (Plane.axial axis bound).normal = Plane.unit axis := rfl
  have oppositeNormal
      (axis : Axis)
      (bound : Rat) :
      (Plane.axial axis bound).opposite.normal = -Plane.unit axis := rfl
  rw [BoxHull.outwardPlane, BoxHull.facePlane]
  cases BoxHull.outside face with
  | front =>
      dsimp only
      rw [normal, Vec3.dot_unit, pushedDist_axial]
      ring
  | back =>
      dsimp only
      rw [oppositeNormal, Vec3.dot_neg, Vec3.dot_unit, pushedDist_opposite]
      ring

end Faces

/-- The moving box is at a place more than `distEpsilon` inside the bounds of a box. -/
def Penetrates
    (motion : Motion Rat)
    (bounds : Box Rat)
    (place : Rat) : Prop :=
  ∀ axis,
    (motion.position place).get axis + motion.box.mins.get axis <
        bounds.maxs.get axis - Scalar.distEpsilon ∧
      bounds.mins.get axis + Scalar.distEpsilon <
        (motion.position place).get axis + motion.box.maxs.get axis

/-- Such a box is deep behind all planes that look out of the bounds. -/
theorem Penetrates.deepBehind
    (penetrates : motion.Penetrates bounds place)
    {faces : List (Face Rat)}
    (lookOut :
      ∀ entry ∈ faces,
        ∃ face < BoxHull.faceCount,
          entry.plane = BoxHull.outwardPlane bounds face) :
    motion.DeepBehind faces place := by
  intro entry member
  obtain ⟨face, _, shape⟩ := lookOut entry member
  obtain ⟨belowMaxs, aboveMins⟩ := penetrates (BoxHull.faceAxis face)
  rw [distAt_eq, pointAt_eq_position, shape, dist_outwardPlane,
    BoxHull.faceBound]
  cases BoxHull.outside face with
  | front =>
      dsimp only
      linarith
  | back =>
      dsimp only
      linarith

/-- It has a point well inside the bounds, if these are thick enough. -/
theorem Penetrates.exists_within
    (penetrates : motion.Penetrates bounds place)
    (thick :
      ∀ axis,
        2 * Scalar.distEpsilon ≤
          bounds.maxs.get axis - bounds.mins.get axis)
    (ordered :
      ∀ axis, motion.box.mins.get axis ≤ motion.box.maxs.get axis) :
    ∃ within,
      motion.box.Contains within ∧
        BoxHull.WellInside bounds (motion.position place + within) := by
  have each
      (axis : Axis) :
      ∃ value,
        (motion.box.mins.get axis ≤ value ∧
            value ≤ motion.box.maxs.get axis) ∧
          bounds.mins.get axis + Scalar.distEpsilon ≤
              (motion.position place).get axis + value ∧
            (motion.position place).get axis + value ≤
              bounds.maxs.get axis - Scalar.distEpsilon := by
    obtain ⟨belowMaxs, aboveMins⟩ := penetrates axis
    have thickHere := thick axis
    rcases le_total (motion.box.mins.get axis)
        (bounds.mins.get axis + Scalar.distEpsilon -
          (motion.position place).get axis) with starts | reaches
    · refine
        ⟨bounds.mins.get axis + Scalar.distEpsilon -
            (motion.position place).get axis, ⟨starts, ?_⟩, ?_, ?_⟩
      · linarith
      · linarith
      · linarith
    · refine
        ⟨motion.box.mins.get axis, ⟨le_refl _, ordered axis⟩, ?_, ?_⟩
      · linarith
      · linarith
  obtain ⟨within, holds⟩ := Vec3.exists_get each
  refine ⟨within, fun axis => (holds axis).1, fun axis => ?_⟩
  rw [Vec3.get_add]
  exact (holds axis).2

/-- What is less than a bound at the end of a line is so from some place before. -/
theorem exists_lt_before_end
    (first : Rat)
    {last bound : Rat}
    (less : last < bound) :
    ∃ start,
      (0 ≤ start ∧ start < 1) ∧
        ∀ place,
          start ≤ place → place ≤ 1 →
            first + (last - first) * place < bound := by
  by_cases lessAtFirst : first < bound
  · refine ⟨0, ⟨le_refl 0, zero_lt_one⟩, fun place nonneg atMostOne => ?_⟩
    rcases le_total first last with rises | falls
    · have partly :=
        mul_le_of_le_one_right (sub_nonneg.mpr rises) atMostOne
      linarith
    · have falling := mul_nonneg (sub_nonneg.mpr falls) nonneg
      linarith
  · have falls : 0 < first - last := by
      linarith [not_lt.mp lessAtFirst]
    have crosses : (first - bound) / (first - last) < 1 := by
      rw [div_lt_one falls]
      linarith
    have crossesAfter : 0 ≤ (first - bound) / (first - last) :=
      div_nonneg (sub_nonneg.mpr (not_lt.mp lessAtFirst)) (le_of_lt falls)
    refine
      ⟨((first - bound) / (first - last) + 1) / 2, ⟨by linarith, by linarith⟩,
        fun place after _ => ?_⟩
    have past : (first - bound) / (first - last) < place := by
      linarith
    rw [div_lt_iff₀ falls] at past
    linarith

/-- A box that is deep inside at the end of its way is so before the end. -/
theorem Penetrates.exists_before_end
    (penetrates : motion.Penetrates bounds 1) :
    ∃ place,
      (0 ≤ place ∧ place < 1) ∧ motion.Penetrates bounds place := by
  have each
      (axis : Axis) :
      ∃ start,
        (0 ≤ start ∧ start < 1) ∧
          ∀ place,
            start ≤ place → place ≤ 1 →
              (motion.position place).get axis + motion.box.mins.get axis <
                  bounds.maxs.get axis - Scalar.distEpsilon ∧
                bounds.mins.get axis + Scalar.distEpsilon <
                  (motion.position place).get axis +
                    motion.box.maxs.get axis := by
    obtain ⟨belowMaxs, aboveMins⟩ := penetrates axis
    rw [get_position, one_mul, add_sub_cancel] at belowMaxs aboveMins
    obtain ⟨upper, ⟨upperNonneg, upperBefore⟩, staysBelow⟩ :=
      exists_lt_before_end (motion.start.get axis)
        (lt_sub_iff_add_lt.mpr belowMaxs)
    obtain ⟨lower, ⟨_, lowerBefore⟩, staysAbove⟩ :=
      exists_lt_before_end (-motion.start.get axis)
        (neg_lt_neg (sub_lt_iff_lt_add.mpr aboveMins))
    refine
      ⟨max upper lower,
        ⟨le_max_of_le_left upperNonneg, max_lt upperBefore lowerBefore⟩,
        fun place after atMostOne => ?_⟩
    obtain ⟨afterUpper, afterLower⟩ := max_le_iff.mp after
    have below := staysBelow place afterUpper atMostOne
    have above := staysAbove place afterLower atMostOne
    rw [get_position]
    constructor
    · linarith
    · linarith
  obtain ⟨starts, late⟩ := Vec3.exists_get each
  refine
    ⟨max starts.x (max starts.y starts.z),
      ⟨le_max_of_le_left (late .x).1.1,
        max_lt (late .x).1.2 (max_lt (late .y).1.2 (late .z).1.2)⟩,
      fun axis => ?_⟩
  refine (late axis).2 _ ?_ ?_
  · cases axis with
    | x =>
        exact le_max_left _ _
    | y =>
        exact le_max_of_le_right (le_max_left _ _)
    | z =>
        exact le_max_of_le_right (le_max_right _ _)
  · exact
      le_of_lt (max_lt (late .x).1.2 (max_lt (late .y).1.2 (late .z).1.2))

end Motion

namespace SkipPolicy

/-- Before any brush was considered the usual policy skips none. -/
theorem usual_nil
    (id : Nat) :
    usual [] id = false :=
  rfl

/-- It skips the only brush that was considered before. -/
theorem usual_of_only
    {considered : List Nat}
    {id : Nat}
    (present : considered ≠ [])
    (only : ∀ other ∈ considered, other = id) :
    usual considered id = true := by
  cases considered with
  | nil =>
      exact absurd rfl present
  | cons first rest =>
      have isFirst := only first List.mem_cons_self
      subst isFirst
      simp [usual, bySlot]

end SkipPolicy

namespace BoxHull

variable {level : Level Rat} {bounds : Box Rat} {motion : Motion Rat}
variable {faces : List (Face Rat)} {before after : Probe Rat}

/-- The motion was clipped to the brush of a hull, and to no other. -/
structure Clipped
    (level : Level Rat)
    (motion : Motion Rat)
    (faces : List (Face Rat))
    (probe : Probe Rat) : Prop where
  considered :
    probe.considered ≠ []
  only :
    ∀ id ∈ probe.considered, id = level.own.brushes.size
  trace :
    probe.trace =
      (Trace.unobstructed motion.stop).clip motion .monster faces
        (leafId level.own)

/-- The motion has met nothing, or it was clipped to the brush of a hull. -/
def Underway
    (level : Level Rat)
    (motion : Motion Rat)
    (faces : List (Face Rat))
    (probe : Probe Rat) : Prop :=
  probe.considered = [] ∧ probe.trace = .unobstructed motion.stop ∨
    Clipped level motion faces probe

/-- Considering the brush of the hull clips the motion to it, unless it did before. -/
theorem Underway.considers
    (underway : Underway level motion faces before)
    (obstacle :
      (level.tree (.box bounds)).Obstacle motion.mask
        level.own.brushes.size (brush level.own) faces)
    (considers :
      (level.tree (.box bounds)).Considers .usual motion.mask
        (Probe.clip motion) (leafId level.own) level.own.brushes.size before
        after) :
    Clipped level motion faces after := by
  rcases underway with ⟨none, unobstructed⟩ | clipped
  · cases considers with
    | skipped skips =>
        rw [none, SkipPolicy.usual_nil] at skips
        cases skips
    | passed _ noObstacle =>
        exact absurd obstacle (noObstacle _ _)
    | met _ other =>
        obtain ⟨rfl, rfl⟩ := obstacle.unique other
        exact
          { considered := List.cons_ne_nil _ _
            only := by
              intro id member
              change id ∈ _ :: before.considered at member
              rw [none] at member
              exact List.mem_singleton.mp member
            trace := by
              change before.trace.clip motion .monster faces _ = _
              rw [unobstructed] }
  · -- The hull has no other brush, so that this one is skipped once it was met.
    have skips := SkipPolicy.usual_of_only clipped.considered clipped.only
    cases considers with
    | skipped _ =>
        exact
          { considered := List.cons_ne_nil _ _
            only := by
              intro id member
              rcases List.mem_cons.mp member with isHull | inRest
              · exact isHull
              · exact clipped.only id inRest
            trace := clipped.trace }
    | passed notSkipped _ =>
        rw [skips] at notSkipped
        cases notSkipped
    | met notSkipped _ =>
        rw [skips] at notSkipped
        cases notSkipped

/-- Every visit keeps a motion underway, and one of the leaf of the hull clips it. -/
theorem Underway.visitLeaf
    (underway : Underway level motion faces before)
    (sound : level.Sound)
    (obstacle :
      (level.tree (.box bounds)).Obstacle motion.mask
        level.own.brushes.size (brush level.own) faces)
    (wanted : Contents.monster.intersects motion.mask = true)
    {leafFound : Nat}
    (below :
      (level.tree (.box bounds)).Below (level.tree (.box bounds)).root
        (.leaf leafFound)) :
    ∃ after,
      (level.tree (.box bounds)).sweepVisit .usual motion leafFound before =
          .ok after ∧
        Underway level motion faces after ∧
        (Clipped level motion faces before ∨ leafFound = leafId level.own →
          Clipped level motion faces after) := by
  rcases leaf_below_stage (Nat.zero_add faceCount) below with
      isEmpty | isHull
  · obtain ⟨entry, found, empty⟩ := sound.emptyLeaf
    have unwanted : entry.contents.intersects motion.mask = false := by
      rw [empty]
      exact Contents.not_intersects_empty motion.mask
    subst isEmpty
    refine
      ⟨before, Tree.visitLeaf_of_unwanted (ownLeaf_tree found) unwanted before,
        underway, ?_⟩
    rintro (clipped | isHull)
    · exact clipped
    · exact absurd isHull (Nat.ne_of_lt sound.emptyLeaf_lt)
  · subst isHull
    obtain ⟨after, considers, visited⟩ :=
      Tree.exists_visitLeaf_of_only (sound.closed_tree (.box bounds))
        leaf_tree wanted leafBrushes_tree before
    have clipped := underway.considers obstacle considers
    exact ⟨after, visited, .inr clipped, fun _ => clipped⟩

/-- A sweep that is anywhere deep inside of a hull is clipped to its brush. -/
theorem exists_clipped
    (sound : level.Sound)
    (thick :
      ∀ axis,
        2 * Scalar.distEpsilon ≤
          bounds.maxs.get axis - bounds.mins.get axis)
    (ordered :
      ∀ axis, motion.box.mins.get axis ≤ motion.box.maxs.get axis)
    (wanted : Contents.monster.intersects motion.mask = true)
    (obstacle :
      (level.tree (.box bounds)).Obstacle motion.mask
        level.own.brushes.size (brush level.own) faces) :
    ∃ swept,
      (level.tree (.box bounds)).sweep motion
            ((level.tree (.box bounds)).sweepVisit .usual motion)
            (level.tree (.box bounds)).sweepBound
            (level.tree (.box bounds)).root motion.segment (.begin motion) =
          .ok swept ∧
        swept.trace.fraction ≤ 1 ∧
        ∀ place,
          0 ≤ place → place ≤ 1 →
            motion.Penetrates bounds place →
              Clipped level motion faces swept := by
  have closed := sound.closed_tree (.box bounds)
  have ends := endsWithin_stage sound bounds (Nat.zero_add faceCount)
  have enough : faceCount ≤ (level.tree (.box bounds)).sweepBound := by
    unfold Tree.sweepBound faceCount
    omega
  have begins : Underway level motion faces (.begin motion) :=
    .inl ⟨rfl, rfl⟩
  obtain ⟨swept, sweeps, underway⟩ :=
    ends.exists_sweep_keeping
      (fun _ _ below _ (held : Underway level motion faces _) =>
        have ⟨after, visited, afterHolds, _⟩ :=
          held.visitLeaf sound obstacle wanted below
        ⟨after, visited, afterHolds⟩)
      enough motion.segment begins
  have visits :
      ∀ id < (level.tree (.box bounds)).records.leaves.size,
        ∀ probe,
          ∃ after,
            (level.tree (.box bounds)).sweepVisit .usual motion id probe =
                .ok after ∧
              probe.trace.Slows after.trace :=
    fun _ inRange probe =>
      Tree.exists_sweepVisit closed .usual motion inRange probe
  have atMostWhole := (ends.slows visits enough sweeps zero_le_one).2
  refine
    ⟨swept, sweeps, atMostWhole, fun place nonneg atMostOne penetrates => ?_⟩
  rcases underway with ⟨_, unobstructed⟩ | clipped
  · obtain ⟨early, ⟨earlyNonneg, beforeEnd⟩, penetratesEarly⟩ :
        ∃ early,
          (0 ≤ early ∧ early < 1) ∧ motion.Penetrates bounds early := by
      rcases lt_or_eq_of_le atMostOne with beforeEnd | atEnd
      · exact ⟨place, ⟨nonneg, beforeEnd⟩, penetrates⟩
      · rw [atEnd] at penetrates
        exact penetrates.exists_before_end
    obtain ⟨within, inBox, inside⟩ :=
      penetratesEarly.exists_within thick ordered
    have unstopped : early < swept.trace.fraction := by
      rw [unobstructed]
      exact beforeEnd
    have comesTo :=
      ends.sweep_comesTo visits enough (Segment.liesOn_segment motion)
        zero_le_one sweeps earlyNonneg (le_of_lt beforeEnd) unstopped inBox
        (fun _ meets => inside.clear (Nat.zero_add faceCount) meets)
        (inside.descend (Nat.zero_add faceCount)) .endless
    refine ends.reached_of_sweep ?_ enough begins sweeps comesTo
    intro id below before after held visited
    obtain ⟨_, visitedToo, reaches⟩ :=
      held.visitLeaf sound obstacle wanted below
    cases visited.symm.trans visitedToo
    exact reaches
  · exact clipped

end BoxHull

namespace World

/--
A box that moves past a box hull, which is at least twice `distEpsilon` thick, and does not
start inside of it, is nowhere before its stop deeper than `distEpsilon` inside the hull: at
each place some axis has it at most that far inside one of the two bounds.
-/
theorem trace_outside_hull
    {level : Level Rat}
    (sound : level.Sound)
    {bounds : Box Rat}
    (thick :
      ∀ axis,
        2 * Scalar.distEpsilon ≤
          bounds.maxs.get axis - bounds.mins.get axis)
    {motion : Motion Rat}
    (ordered :
      ∀ axis, motion.box.mins.get axis ≤ motion.box.maxs.get axis)
    (moves : motion.start ≠ motion.stop)
    (wanted : Contents.monster.intersects motion.mask = true)
    {world : World Rat}
    (uses : world.level = level) :
    ∃ trace after,
      world.trace (.box bounds) motion = .ok (trace, after) ∧
        (trace.startSolid = false →
          ∀ place,
            0 ≤ place → place ≤ trace.fraction →
              ∃ axis,
                bounds.maxs.get axis - Scalar.distEpsilon ≤
                    (motion.position place).get axis +
                      motion.box.mins.get axis ∨
                  (motion.position place).get axis +
                      motion.box.maxs.get axis ≤
                    bounds.mins.get axis + Scalar.distEpsilon) := by
  obtain ⟨faces, obstacle⟩ := BoxHull.exists_obstacle sound bounds wanted
  obtain ⟨swept, sweeps, atMostWhole, clipped⟩ :=
    BoxHull.exists_clipped sound thick ordered wanted obstacle
  have notStill : motion.isStill = false := by
    rw [Bool.eq_false_iff, Motion.isStill, ne_eq, Vec3.coincides_iff]
    exact moves
  have probes :
      (level.tree (.box bounds)).probe .usual world.config.maxTouchedLeaves
          motion =
        .ok (swept.arrive motion) :=
    Tree.probe_of_sweep notStill sweeps
  rw [World.trace, uses, probes]
  refine
    ⟨_, _, rfl, fun notSolid place nonneg unstopped => ?_⟩
  rw [Probe.startSolid_arrive] at notSolid
  rw [Probe.fraction_arrive] at unstopped
  have atMostOne := le_trans unstopped atMostWhole
  by_contra nowhere
  simp only [not_exists, not_or, not_le] at nowhere
  have penetrates : motion.Penetrates bounds place := nowhere
  have hit := clipped place nonneg atMostOne penetrates
  rw [hit.trace] at notSolid unstopped
  exact
    Trace.not_deepBehind_of_clip notSolid nonneg atMostOne unstopped
      (penetrates.deepBehind fun _ member =>
        BoxHull.exists_of_mem_faces obstacle.faces member)

/-- A world without a map. -/
def unmapped : World Rat where
  level := .empty
  areas := .closed (Level.empty : Level Rat).own
  config := {}
  counters := {}

/-- The hull of a cube around the origin. -/
def cube : Box Rat where
  mins := ⟨-1, -1, -1⟩
  maxs := ⟨1, 1, 1⟩

/-- A smaller cube that moves through it. -/
def throughCube : Motion Rat where
  start := ⟨-4, 0, 0⟩
  stop := ⟨4, 1, 0⟩
  box := { mins := ⟨-1 / 2, -1 / 2, -1 / 2⟩, maxs := ⟨1 / 2, 1 / 2, 1 / 2⟩ }
  mask := .monster

/-- The smaller cube is stopped, and where it stops it is not deep in the other one. -/
theorem trace_outside_cube :
    ∃ trace after,
      unmapped.trace (.box cube) throughCube = .ok (trace, after) ∧
        trace.fraction < 1 ∧
        ∃ axis,
          cube.maxs.get axis - Scalar.distEpsilon ≤
              (throughCube.position trace.fraction).get axis +
                throughCube.box.mins.get axis ∨
            (throughCube.position trace.fraction).get axis +
                throughCube.box.maxs.get axis ≤
              cube.mins.get axis + Scalar.distEpsilon := by
  have thick :
      ∀ axis,
        2 * Scalar.distEpsilon ≤ cube.maxs.get axis - cube.mins.get axis := by
    intro axis
    cases axis <;> decide +kernel
  have ordered :
      ∀ axis,
        throughCube.box.mins.get axis ≤ throughCube.box.maxs.get axis := by
    intro axis
    cases axis <;> decide +kernel
  have moves : throughCube.start ≠ throughCube.stop := by
    decide +kernel
  obtain ⟨trace, after, traces, outside⟩ :=
    trace_outside_hull Level.sound_empty thick ordered moves (by decide)
      (show unmapped.level = .empty from rfl)
  have run :
      (unmapped.trace (.box cube) throughCube).toOption.map
          (fun answer =>
            (answer.1.startSolid, decide (0 ≤ answer.1.fraction),
              answer.1.isObstructed)) =
        some (false, true, true) := by
    decide +kernel
  rw [traces] at run
  simp only [Except.toOption, Option.map_some, Option.some.injEq,
    Prod.mk.injEq, decide_eq_true_eq, Trace.isObstructed] at run
  obtain ⟨notSolid, nonneg, obstructed⟩ := run
  exact
    ⟨trace, after, traces, obstructed,
      outside notSolid trace.fraction nonneg (le_refl _)⟩

end World

end LevelCollision
