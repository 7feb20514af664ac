import LevelCollision.Proofs.Crossings
import LevelCollision.Proofs.SweepSegments

namespace LevelCollision

/-!
# Sweeps leave out no leaf

In exact arithmetic a sweep comes to the leaf of every point of the moving box, at
every place before the one at which it is stopped, unless the point is within
`distEpsilon` of a plane that splits the tree on its way. Splitting a motion at the
planes, and passing over the parts behind the stop, leave out no leaf that matters.

That a sweep comes to a leaf is said by what happens when visits of the leaf fail:
the sweep then fails with them.
-/

namespace Segment

variable {segment : Segment Rat} {motion : Motion Rat} {part : Rat}
variable {within : Vec3 Rat} {plane : Plane Rat}

theorem close_to_plane
    (inBox : motion.box.Contains within)
    (segment : Segment Rat)
    (plane : Plane Rat)
    (part : Rat) :
    |plane.pointDist (segment.pointAt part + within) -
        (plane.pointDist segment.fromPoint +
          part *
            (plane.pointDist segment.toPoint -
              plane.pointDist segment.fromPoint))| ≤
      motion.offset plane := by
  rw [Plane.pointDist_add, Segment.pointAt, Plane.pointDist_between,
    add_sub_cancel_left]
  exact Motion.abs_rise_le_offset inBox plane

/-- A segment that is not split goes to the side of every clear point. -/
theorem pointSide_of_route_whole
    {side : Side}
    (inBox : motion.box.Contains within)
    (nonneg : 0 ≤ part)
    (atMostOne : part ≤ 1)
    (clear :
      Scalar.distEpsilon ≤
        |plane.pointDist (segment.pointAt part + within)|)
    (route : segment.route motion plane = .whole side) :
    plane.pointSide (segment.pointAt part + within) = side := by
  obtain ⟨above, below⟩ :=
    abs_le.mp (close_to_plane inBox segment plane part)
  dsimp only [Segment.route] at route
  split at route
  · rename_i bothInFront
    cases route
    have first :=
      mul_nonneg (sub_nonneg.mpr atMostOne)
        (sub_nonneg.mpr bothInFront.1)
    have second := mul_nonneg nonneg (sub_nonneg.mpr bothInFront.2)
    refine Plane.pointSide_eq_front ?_
    linarith
  · split at route
    · rename_i bothBehind
      cases route
      have first :=
        mul_nonneg (sub_nonneg.mpr atMostOne)
          (sub_nonneg.mpr bothBehind.1)
      have second := mul_nonneg nonneg (sub_nonneg.mpr bothBehind.2)
      have notInFront :
          plane.pointDist (segment.pointAt part + within) ≤ 0 := by
        linarith
      rw [abs_of_nonpos notInFront] at clear
      refine Plane.pointSide_eq_back ?_
      linarith [Scalar.distEpsilon_pos]
    · cases route

/-- A segment that is split takes every clear point to the part on its side. -/
theorem covered_of_route_parts
    {parts : Split Rat}
    (inBox : motion.box.Contains within)
    (nonneg : 0 ≤ part)
    (atMostOne : part ≤ 1)
    (clear :
      Scalar.distEpsilon ≤
        |plane.pointDist (segment.pointAt part + within)|)
    (route : segment.route motion plane = .parts parts) :
    plane.pointSide (segment.pointAt part + within) = parts.near ∧
        part ≤ parts.nearStop ∨
      plane.pointSide (segment.pointAt part + within) =
          parts.near.opposite ∧
        parts.farStart ≤ part := by
  have covers :=
    Split.ofDists_covers nonneg atMostOne
      (close_to_plane inBox segment plane part) clear
  dsimp only [Segment.route] at route
  split at route
  · cases route
  · split at route
    · cases route
    · cases route
      exact covers

theorem fractionAt_le_fractionAt
    {first second : Rat}
    (liesOn : segment.LiesOn motion)
    (ordered : first ≤ second) :
    segment.fractionAt first ≤ segment.fractionAt second := by
  have along :=
    mul_le_mul_of_nonneg_left ordered (sub_nonneg.mpr liesOn.forwards)
  unfold fractionAt
  linarith

end Segment

namespace Trace

/-- A fraction that is not negative does not grow, and stays so. -/
def Slows
    (before after : Trace Rat) : Prop :=
  0 ≤ before.fraction →
    0 ≤ after.fraction ∧ after.fraction ≤ before.fraction

theorem progress_slows :
    Progress Slows where
  refl _ nonneg := ⟨nonneg, le_refl _⟩
  trans first second nonneg := by
    obtain ⟨middleNonneg, middleLe⟩ := first nonneg
    obtain ⟨lastNonneg, lastLe⟩ := second middleNonneg
    exact ⟨lastNonneg, le_trans lastLe middleLe⟩

theorem slows_stopAt
    (trace : Trace Rat)
    (crossing : Crossing Rat)
    (contents : Contents)
    (leaf : Nat) :
    trace.Slows (trace.stopAt crossing contents leaf) := by
  intro nonneg
  unfold stopAt
  split
  · split
    · rename_i stops
      change
        0 ≤ Scalar.upper 0 crossing.enter ∧
          Scalar.upper 0 crossing.enter ≤ trace.fraction
      rw [Scalar.upper_eq]
      exact ⟨le_max_left _ _, max_le nonneg (le_of_lt stops.2.2)⟩
    · exact ⟨nonneg, le_refl _⟩
  · exact ⟨nonneg, le_refl _⟩

/-- Meeting a brush does not take a motion farther. -/
theorem slows_clip
    (trace : Trace Rat)
    (motion : Motion Rat)
    (contents : Contents)
    (faces : List (Face Rat))
    (leaf : Nat) :
    trace.Slows (trace.clip motion contents faces leaf) := by
  unfold clip
  split
  · rename_i crossing _
    intro nonneg
    rw [← fraction_noteStart trace crossing leaf] at nonneg ⊢
    exact slows_stopAt _ crossing contents leaf nonneg
  · exact progress_slows.refl trace

end Trace

namespace Tree

variable {tree : Tree Rat} {clusterCount : Nat} {motion : Motion Rat}

/-- The visits that a sweep makes. -/
def sweepVisit
    (tree : Tree Rat)
    (policy : SkipPolicy)
    (motion : Motion Rat) : Nat → Probe Rat → Except Fault (Probe Rat) :=
  tree.visitLeaf policy motion.mask (Probe.clip motion)

theorem exists_sweepVisit
    (closed : tree.records.Closed clusterCount)
    (policy : SkipPolicy)
    (motion : Motion Rat)
    {id : Nat}
    (inRange : id < tree.records.leaves.size)
    (probe : Probe Rat) :
    ∃ after,
      tree.sweepVisit policy motion id probe = .ok after ∧
        probe.trace.Slows after.trace := by
  refine
    exists_visitLeaf closed Trace.progress_slows ?_ policy motion.mask
      inRange probe
  intro contents faces leaf before
  exact before.trace.slows_clip motion contents faces leaf

section Walks

variable {visit : Nat → Probe Rat → Except Fault (Probe Rat)}
variable {levels more : Nat} {child : Child}
variable {segment : Segment Rat} {probe after : Probe Rat}

/-- A walk does not take a motion farther. -/
theorem EndsWithin.slows
    (ends : tree.EndsWithin levels child)
    (visits :
      ∀ id < tree.records.leaves.size,
        ∀ probe,
          ∃ after,
            visit id probe = .ok after ∧ probe.trace.Slows after.trace)
    (enough : levels ≤ more)
    (sweeps :
      tree.sweep motion visit more child segment probe = .ok after) :
    probe.trace.Slows after.trace := by
  obtain ⟨final, sweepsAgain, slows⟩ :=
    ends.exists_sweep Trace.progress_slows visits enough segment probe
  rw [sweeps, Except.ok.injEq] at sweepsAgain
  rw [sweepsAgain]
  exact slows

/--
A walk of a segment comes to the leaf of every clear point of the box, at every place
of the segment before the one at which the motion is stopped in the end.
-/
theorem EndsWithin.sweep_comesTo
    (ends : tree.EndsWithin levels child)
    (visits :
      ∀ id < tree.records.leaves.size,
        ∀ probe,
          ∃ after,
            visit id probe = .ok after ∧ probe.trace.Slows after.trace)
    (enough : levels ≤ more)
    (liesOn : segment.LiesOn motion)
    (nonneg : 0 ≤ probe.trace.fraction)
    (sweeps :
      tree.sweep motion visit more child segment probe = .ok after)
    {place : Rat}
    (afterFrom : segment.fromFraction ≤ place)
    (beforeTo : place ≤ segment.toFraction)
    (unstopped : place < after.trace.fraction)
    {within : Vec3 Rat}
    (inBox : motion.box.Contains within)
    (clear :
      ∀ plane,
        tree.Meets (motion.position place + within) child plane →
          Scalar.distEpsilon ≤
            |plane.pointDist (motion.position place + within)|)
    {leaf : Nat}
    (descends :
      tree.descend (motion.position place + within) levels child = .ok leaf)
    (fault : Fault) :
    tree.sweep motion (failingAt leaf fault visit) more child segment probe =
      .error fault := by
  induction ends generalizing more segment probe after with
  | @leaf levels id inRange =>
      have goesOn : ¬probe.trace.fraction ≤ segment.fromFraction := by
        obtain ⟨_, atMost⟩ :=
          (EndsWithin.leaf inRange).slows visits enough sweeps nonneg
        linarith
      have isLeaf : id = leaf := by
        cases levels <;> exact Except.ok.inj descends
      rw [sweep_leaf goesOn]
      exact if_pos isLeaf
  | @node levels id node plane foundNode foundPlane below
      inductionHypothesis =>
      have goesOn : ¬probe.trace.fraction ≤ segment.fromFraction := by
        obtain ⟨_, atMost⟩ :=
          (EndsWithin.node foundNode foundPlane below).slows visits enough
            sweeps nonneg
        linarith
      obtain ⟨fewer, rfl⟩ := Nat.exists_eq_add_of_le' enough
      have enoughBelow : levels ≤ fewer + levels :=
        Nat.le_add_left levels fewer
      rw [← Nat.add_assoc] at sweeps ⊢
      rw [Tree.descend, foundNode, ok_bind, foundPlane, ok_bind] at descends
      obtain ⟨part, partNonneg, partAtMostOne, isPlace⟩ :=
        Segment.exists_part afterFrom beforeTo
      have atPart : segment.pointAt part = motion.position place := by
        rw [liesOn.pointAt, isPlace, motion.pointAt_eq_position]
      have clearHere := clear plane (.atNode foundNode foundPlane)
      have clearBelow :
          ∀ other,
            tree.Meets (motion.position place + within)
                (node.child
                  (plane.pointSide (motion.position place + within)))
                other →
              Scalar.distEpsilon ≤
                |other.pointDist (motion.position place + within)| :=
        fun other meets => clear other (.onwards foundNode foundPlane meets)
      rw [← atPart] at clearHere
      cases route : segment.route motion plane with
      | whole side =>
          have sameSide :=
            Segment.pointSide_of_route_whole inBox partNonneg partAtMostOne
              clearHere route
          rw [atPart] at sameSide
          rw [sameSide] at descends clearBelow
          rw [sweep_whole goesOn foundNode foundPlane route] at sweeps ⊢
          exact
            inductionHypothesis side enoughBelow liesOn nonneg sweeps
              afterFrom beforeTo unstopped clearBelow descends
      | parts split =>
          rw [sweep_parts goesOn foundNode foundPlane route] at sweeps ⊢
          obtain ⟨middle, near, far⟩ := bind_eq_ok_iff.mp sweeps
          obtain ⟨middleNonneg, _⟩ :=
            (below split.near).slows visits enoughBelow near nonneg
          obtain ⟨_, farAtMost⟩ :=
            (below split.near.opposite).slows visits enoughBelow far
              middleNonneg
          obtain ⟨stopInUnit, startInUnit⟩ := Segment.inUnit_of_route route
          have covered :=
            Segment.covered_of_route_parts inBox partNonneg partAtMostOne
              clearHere route
          rw [atPart] at covered
          rcases covered with
              ⟨sameSide, beforeStop⟩ | ⟨sameSide, afterStart⟩
          · rw [sameSide] at descends clearBelow
            have beforeNearStop :
                place ≤ (segment.upTo split.nearStop).toFraction := by
              rw [← isPlace]
              exact Segment.fractionAt_le_fractionAt liesOn beforeStop
            have fails :=
              inductionHypothesis split.near enoughBelow
                (liesOn.upTo stopInUnit.nonneg) nonneg near afterFrom
                beforeNearStop (lt_of_lt_of_le unstopped farAtMost)
                clearBelow descends
            rw [fails]
            rfl
          · rw [sameSide] at descends clearBelow
            have afterFarStart :
                (segment.onwards split.farStart).fromFraction ≤ place := by
              rw [← isPlace]
              exact Segment.fractionAt_le_fractionAt liesOn afterStart
            rcases (below split.near).sweep_failingAt enoughBelow near with
                failed | passed
            · rw [failed]
              rfl
            · rw [passed, ok_bind]
              exact
                inductionHypothesis split.near.opposite enoughBelow
                  (liesOn.onwards startInUnit.atMostOne) middleNonneg far
                  afterFarStart beforeTo unstopped clearBelow descends

end Walks

/-- The sweep of a motion comes to a leaf: where visits of the leaf fail, it fails. -/
def SweepComesTo
    (tree : Tree Rat)
    (policy : SkipPolicy)
    (motion : Motion Rat)
    (leaf : Nat) : Prop :=
  ∀ fault,
    tree.sweep motion
        (failingAt leaf fault
          (tree.visitLeaf policy motion.mask (Probe.clip motion)))
        tree.sweepBound tree.root motion.segment (.begin motion) =
      .error fault

/-- What a motion that goes somewhere ends in is told by its sweep. -/
theorem exists_probe_of_sweep
    {policy : SkipPolicy}
    {leafLimit : Nat}
    {swept : Probe Rat}
    (moves : motion.start ≠ motion.stop)
    (sweeps :
      tree.sweep motion (tree.sweepVisit policy motion) tree.sweepBound
          tree.root motion.segment (.begin motion) =
        .ok swept) :
    ∃ final,
      tree.probe policy leafLimit motion = .ok final ∧
        final.trace.fraction = swept.trace.fraction := by
  have notStill : motion.isStill = false := by
    rw [Bool.eq_false_iff, Motion.isStill, ne_eq, Vec3.coincides_iff]
    exact moves
  exact ⟨_, probe_of_sweep notStill sweeps, swept.fraction_arrive motion⟩

/--
In an acyclic tree the sweep of a motion comes to an end. For every place before the
one at which it is stopped and every point of the box there, if the descent of the
point stays clear of the planes it meets, the sweep comes to the leaf of the point.
-/
theorem sweep_comesTo_pointLeaf
    (closed : tree.records.Closed clusterCount)
    (rooted : tree.root.In tree.records)
    (acyclic : tree.Acyclic)
    (moves : motion.start ≠ motion.stop)
    (policy : SkipPolicy)
    (leafLimit : Nat) :
    ∃ final,
      tree.probe policy leafLimit motion = .ok final ∧
        ∀ place within,
          0 ≤ place → place ≤ 1 → place < final.trace.fraction →
            motion.box.Contains within →
              (∀ plane,
                tree.Meets (motion.position place + within) tree.root plane →
                  Scalar.distEpsilon ≤
                    |plane.pointDist (motion.position place + within)|) →
                ∃ leaf,
                  tree.pointLeaf (motion.position place + within) =
                      .ok leaf ∧
                    tree.SweepComesTo policy motion leaf := by
  have ends := acyclic.endsWithin closed rooted
  have enough := tree.depthBound_le_sweepBound
  have visits :
      ∀ id < tree.records.leaves.size,
        ∀ probe,
          ∃ after,
            tree.sweepVisit policy motion id probe = .ok after ∧
              probe.trace.Slows after.trace :=
    fun _ inRange probe => exists_sweepVisit closed policy motion inRange probe
  obtain ⟨swept, sweeps, _⟩ :=
    ends.exists_sweep Trace.progress_slows visits enough motion.segment
      (.begin motion)
  obtain ⟨final, probes, sameFraction⟩ :=
    exists_probe_of_sweep moves sweeps
  refine ⟨final, probes, ?_⟩
  intro place within nonneg atMostOne unstopped inBox clear
  obtain ⟨leaf, descends, _⟩ :=
    ends.exists_descend (motion.position place + within)
  refine ⟨leaf, descends, ?_⟩
  intro fault
  rw [sameFraction] at unstopped
  exact
    ends.sweep_comesTo visits enough (Segment.liesOn_segment motion)
      zero_le_one sweeps nonneg atMostOne unstopped inBox clear descends fault

/-- Two rooms in front of a wall, one behind the other. -/
def rooms : Tree Rat where
  records :=
    { planes := #[Plane.axial .x 0, Plane.axial .x 8]
      nodes :=
        #[{ plane := 0, front := .node 1, back := .leaf 0 },
          { plane := 1, front := .leaf 2, back := .leaf 1 }]
      leaves :=
        #[{ contents := .solid, cluster := none, area := 0, brushes := ⟨0, 1⟩ },
          { contents := .solid, cluster := none, area := 0, brushes := ⟨0, 1⟩ },
          { contents := .empty, cluster := none, area := 0, brushes := ⟨0, 0⟩ }]
      leafBrushes := #[0]
      brushes := #[{ contents := .solid, sides := ⟨0, 1⟩ }]
      brushSides := #[{ plane := 0, surface := none }]
      areas := #[{ portals := ⟨0, 0⟩ }] }
  root := .node 0

/-- A box that moves through both rooms towards the wall. -/
def approach : Motion Rat where
  start := ⟨16, 0, 0⟩
  stop := ⟨-16, 0, 0⟩
  box := { mins := ⟨-1, -1, -1⟩, maxs := ⟨1, 1, 1⟩ }
  mask := .solid

theorem closed_rooms :
    rooms.records.Closed 0 := by
  refine Records.closed_iff.mpr ⟨by decide +kernel, ?_⟩
  decide

theorem acyclic_rooms :
    rooms.Acyclic := by
  refine acyclic_of_lt ?_
  rintro id next ⟨node, side, found, isChild⟩
  match id with
  | 0 =>
      cases found
      cases side <;> cases isChild
      decide
  | 1 =>
      cases found
      cases side <;> cases isChild
  | _ + 2 =>
      cases found

/-- One corner of the box when its centre is a quarter of the way. -/
def corner : Vec3 Rat :=
  ⟨7, -1, -1⟩

theorem clear_corner
    {plane : Plane Rat}
    (meets : rooms.Meets corner rooms.root plane) :
    Scalar.distEpsilon ≤ |plane.pointDist corner| := by
  rw [← Scalar.abs_eq]
  change rooms.Meets corner (.node 0) plane at meets
  cases meets with
  | atNode foundNode foundPlane =>
      cases foundNode
      cases foundPlane
      decide +kernel
  | onwards foundNode foundPlane further =>
      cases foundNode
      cases foundPlane
      have inFront : (Plane.axial .x (0 : Rat)).pointSide corner = .front := by
        decide +kernel
      change
        rooms.Meets corner
          (Node.child ⟨0, .node 1, .leaf 0⟩
            ((Plane.axial .x (0 : Rat)).pointSide corner))
          plane at further
      rw [inFront] at further
      change rooms.Meets corner (.node 1) plane at further
      cases further with
      | atNode foundNode foundPlane =>
          cases foundNode
          cases foundPlane
          decide +kernel
      | onwards foundNode foundPlane last =>
          cases foundNode
          cases foundPlane
          have behind : (Plane.axial .x (8 : Rat)).pointSide corner = .back := by
            decide +kernel
          change
            rooms.Meets corner
              (Node.child ⟨1, .leaf 2, .leaf 1⟩
                ((Plane.axial .x (8 : Rat)).pointSide corner))
              plane at last
          rw [behind] at last
          cases last

/-- On its way between the rooms the box has a corner in the one that it comes to. -/
theorem sweep_comesTo_corner :
    ∃ leaf,
      rooms.pointLeaf corner = .ok leaf ∧
        rooms.SweepComesTo .usual approach leaf := by
  have moves : approach.start ≠ approach.stop := by
    decide +kernel
  have rooted : rooms.root.In rooms.records :=
    Nat.zero_lt_two
  obtain ⟨final, probes, comesTo⟩ :=
    sweep_comesTo_pointLeaf closed_rooms rooted acyclic_rooms moves .usual 128
  have fraction :
      (rooms.probe .usual 128 approach).toOption.map (·.trace.fraction) =
        some (479 / 1024) := by
    decide +kernel
  rw [probes] at fraction
  have unstopped : (1 / 4 : Rat) < final.trace.fraction := by
    have stop : final.trace.fraction = 479 / 1024 :=
      Option.some.inj fraction
    rw [stop]
    norm_num
  have isCorner :
      approach.position (1 / 4) + ⟨-1, -1, -1⟩ = corner := by
    decide +kernel
  have comesToCorner :=
    comesTo (1 / 4) ⟨-1, -1, -1⟩ (by norm_num) (by norm_num) unstopped
  rw [isCorner] at comesToCorner
  refine comesToCorner ?_ fun _ => clear_corner
  intro axis
  cases axis <;> decide +kernel

end Tree

end LevelCollision
