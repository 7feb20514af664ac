import LevelCollision.Proofs.Crossings
import LevelCollision.Proofs.FloodFaults
import LevelCollision.Proofs.PackedLevel
import LevelCollision.Proofs.QueryRuns
import LevelCollision.Proofs.ScalarOrder
import LevelCollision.Proofs.SoundLevels
import LevelCollision.World

namespace LevelCollision

/-!
# Consistency of traces

The fields of a trace are written one after the other while brushes are met in many
leaves. They agree with one another all the same: the fraction, the contents, the plane
and the surface are those of one brush, and each of them is there when the others are.

Nothing is asked of the points of the motion or of the planes of the level. Where one of
their distances is not a number, no comparison with it holds, and a brush is not taken to
stop a motion unless two comparisons say so.
-/

open Scalar (LawfulOrder)

section

variable {S : Type} {tree : Tree S} {mask contents : Contents}

namespace Tree

/-- A leaf below the root whose contents can stop a box. -/
structure CanStop
    (tree : Tree S)
    (mask : Contents)
    (id : Nat) : Prop where
  below :
    tree.Below tree.root (.leaf id)
  wanted :
    ∃ leaf,
      tree.records.leaves[id]? = some leaf ∧
        leaf.contents.intersects mask = true

/-- A side of a brush of these contents that a leaf below the root lists. -/
inductive HasSide
    (tree : Tree S)
    (mask contents : Contents) :
    Plane S → Option Nat → Prop where
  | ofBrush
      {leaf id : Nat}
      {brush : Brush}
      {sides : List BrushSide}
      {side : BrushSide}
      {plane : Plane S} :
      tree.Below tree.root (.leaf leaf) →
      tree.ListsBrush mask leaf id →
      tree.records.brushes[id]? = some brush →
      brush.contents = contents →
      lookupSpan tree.records.brushSides brush.sides = .ok sides →
      side ∈ sides →
      tree.records.planes[side.plane]? = some plane →
      HasSide tree mask contents plane side.surface

/-- A leaf that lists a brush can stop a box. -/
theorem ListsBrush.canStop
    {leaf id : Nat}
    (lists : tree.ListsBrush mask leaf id)
    (below : tree.Below tree.root (.leaf leaf)) :
    tree.CanStop mask leaf := by
  obtain ⟨entry, _, found, wanted, _, _⟩ := lists
  exact ⟨below, entry, lookup_eq_ok_iff.mp found, wanted⟩

/-- A face of a brush carries the plane and the surface of one of its sides. -/
theorem Obstacle.hasSide
    {leaf id : Nat}
    {brush : Brush}
    {faces : List (Face S)}
    {face : Face S}
    (obstacle : tree.Obstacle mask id brush faces)
    (below : tree.Below tree.root (.leaf leaf))
    (lists : tree.ListsBrush mask leaf id)
    (member : face ∈ faces) :
    tree.HasSide mask brush.contents face.plane face.surface := by
  obtain ⟨sides, foundSides, lookedUp⟩ :=
    bind_eq_ok_iff.mp obstacle.faces
  obtain ⟨side, isSide, foundFace⟩ := exists_of_mem_mapM lookedUp member
  obtain ⟨plane, foundPlane, shape⟩ := bind_eq_ok_iff.mp foundFace
  cases shape
  exact
    .ofBrush below lists obstacle.found rfl foundSides isSide
      (lookup_eq_ok_iff.mp foundPlane)

end Tree

variable [Scalar S] {motion : Motion S} {trace : Trace S}
variable {faces : List (Face S)} {leaf : Nat}

namespace Trace

/-- The fraction, the contents and the leaf of a trace agree with one another. -/
structure Accounted
    (tree : Tree S)
    (mask : Contents)
    (trace : Trace S) : Prop where
  stopped :
    trace.fraction = 1 ∧ trace.contents = .empty ∨
      (0 ≤ trace.fraction ∧ trace.fraction < 1) ∧
        trace.contents.intersects mask = true
  allSolid :
    trace.allSolid = true → trace.startSolid = true
  leaf_iff :
    trace.leaf.isSome = true ↔
      trace.startSolid = true ∨ trace.fraction < 1
  leaf :
    ∀ id ∈ trace.leaf, tree.CanStop mask id

/-- The plane and the surface of a trace are those of the brush of its contents. -/
structure Struck
    (tree : Tree S)
    (motion : Motion S)
    (trace : Trace S) : Prop where
  plane_iff :
    trace.plane.isSome = true ↔ trace.fraction < 1
  side :
    ∀ plane ∈ trace.plane,
      tree.HasSide motion.mask trace.contents plane trace.surface
  endPoint :
    trace.endPoint = motion.stop

/-- How the fields of a trace agree once a motion was made in a tree. -/
structure Consistent
    (tree : Tree S)
    (motion : Motion S)
    (trace : Trace S) : Prop where
  inUnit :
    0 ≤ trace.fraction ∧ trace.fraction ≤ 1
  isNumber :
    (trace.fraction == trace.fraction) = true
  obstructed_iff :
    trace.fraction < 1 ↔ trace.contents ≠ .empty
  contents_iff :
    trace.contents ≠ .empty ↔
      trace.contents.intersects motion.mask = true
  allSolid :
    trace.allSolid = true → trace.startSolid = true
  leaf_iff :
    trace.leaf.isSome = true ↔
      trace.startSolid = true ∨ trace.fraction < 1
  leaf :
    ∀ id ∈ trace.leaf, tree.CanStop motion.mask id
  plane_iff :
    motion.isStill = false →
      (trace.plane.isSome = true ↔ trace.fraction < 1)
  side :
    motion.isStill = false →
      ∀ plane ∈ trace.plane,
        tree.HasSide motion.mask trace.contents plane trace.surface
  atStop :
    motion.isStill = false →
      trace.fraction = 1 → trace.endPoint = motion.stop
  underway :
    motion.isStill = false →
      trace.fraction < 1 →
        trace.endPoint =
          motion.start +
            (motion.stop - motion.start).scale trace.fraction
  atStart :
    motion.isStill = true → trace.endPoint = motion.start

theorem Accounted.noteStart
    (accounted : trace.Accounted tree mask)
    (canStop : tree.CanStop mask leaf)
    (crossing : Crossing S) :
    (trace.noteStart crossing leaf).Accounted tree mask := by
  unfold Trace.noteStart
  split
  · exact accounted
  · exact
      { stopped := accounted.stopped
        allSolid := fun _ => rfl
        leaf_iff := ⟨fun _ => .inl rfl, fun _ => rfl⟩
        leaf := by
          rintro id ⟨⟩
          exact canStop }

theorem Struck.noteStart
    (struck : trace.Struck tree motion)
    (crossing : Crossing S)
    (leaf : Nat) :
    (trace.noteStart crossing leaf).Struck tree motion := by
  unfold Trace.noteStart
  split
  · exact struck
  · exact ⟨struck.plane_iff, struck.side, struck.endPoint⟩

section Brushes

variable [LawfulOrder S]

theorem accounted_unobstructed
    (tree : Tree S)
    (mask : Contents)
    (endPoint : Vec3 S) :
    (unobstructed endPoint).Accounted tree mask where
  stopped := .inl ⟨rfl, rfl⟩
  allSolid solid := by
    cases solid
  leaf_iff := by
    have notLess : ¬(1 : S) < 1 := LawfulOrder.lt_irrefl 1
    simp [unobstructed, notLess]
  leaf id isLeaf := by
    cases isLeaf

/-- A fraction that is not past the end is one or less than one. -/
theorem Accounted.lt_one_of_lt
    {enter : S}
    (accounted : trace.Accounted tree mask)
    (less : enter < trace.fraction) :
    enter < 1 := by
  rcases accounted.stopped with ⟨isOne, _⟩ | ⟨⟨_, lessThanOne⟩, _⟩
  · rw [isOne] at less
    exact less
  · exact LawfulOrder.lt_trans less lessThanOne

theorem Accounted.stopAt
    (accounted : trace.Accounted tree mask)
    (canStop : tree.CanStop mask leaf)
    (wanted : contents.intersects mask = true)
    (crossing : Crossing S) :
    (trace.stopAt crossing contents leaf).Accounted tree mask := by
  unfold Trace.stopAt
  split
  · split
    · rename_i stops
      have lessThanOne :=
        Scalar.upper_zero_lt_one (accounted.lt_one_of_lt stops.2.2)
      exact
        { stopped :=
            .inr ⟨⟨Scalar.zero_le_upper _, lessThanOne⟩, wanted⟩
          allSolid := accounted.allSolid
          leaf_iff := ⟨fun _ => .inr lessThanOne, fun _ => rfl⟩
          leaf := by
            rintro id ⟨⟩
            exact canStop }
    · exact accounted
  · exact accounted

/-- Clipping a motion to a brush of a leaf keeps the fields of a trace in agreement. -/
theorem Accounted.clip
    (accounted : trace.Accounted tree mask)
    (canStop : tree.CanStop mask leaf)
    (wanted : contents.intersects mask = true)
    (motion : Motion S)
    (faces : List (Face S)) :
    (trace.clip motion contents faces leaf).Accounted tree mask := by
  unfold Trace.clip
  split
  · exact (accounted.noteStart canStop _).stopAt canStop wanted _
  · exact accounted

/-- So does testing a position against it. -/
theorem Accounted.test
    (accounted : trace.Accounted tree mask)
    (canStop : tree.CanStop mask leaf)
    (wanted : contents.intersects mask = true)
    (motion : Motion S)
    (faces : List (Face S)) :
    (trace.test motion contents faces leaf).Accounted tree mask := by
  unfold Trace.test
  split
  · exact accounted
  · have zeroLtOne : (0 : S) < 1 := LawfulOrder.zero_lt_one
    have zeroLeZero : (0 : S) ≤ 0 :=
      LawfulOrder.le_self (LawfulOrder.beq_self_of_lt zeroLtOne)
    exact
      { stopped := .inr ⟨⟨zeroLeZero, zeroLtOne⟩, wanted⟩
        allSolid := fun _ => rfl
        leaf_iff := ⟨fun _ => .inl rfl, fun _ => rfl⟩
        leaf := by
          rintro id ⟨⟩
          exact canStop }

theorem struck_unobstructed
    (tree : Tree S)
    (motion : Motion S) :
    (unobstructed motion.stop).Struck tree motion where
  plane_iff := by
    have notLess : ¬(1 : S) < 1 := LawfulOrder.lt_irrefl 1
    simp [unobstructed, notLess]
  side plane isPlane := by
    cases isPlane
  endPoint := rfl

/-- A motion that is clipped to a brush is struck by one of its sides or as before. -/
theorem Struck.clip
    (struck : trace.Struck tree motion)
    (accounted : trace.Accounted tree motion.mask)
    (canStop : tree.CanStop motion.mask leaf)
    (sides :
      ∀ face ∈ faces,
        tree.HasSide motion.mask contents face.plane face.surface) :
    (trace.clip motion contents faces leaf).Struck tree motion := by
  unfold Trace.clip
  split
  · rename_i crossing met
    have noted := struck.noteStart crossing leaf
    have notedAccounted := accounted.noteStart canStop crossing
    unfold Trace.stopAt
    split
    · rename_i face leads
      split
      · rename_i stops
        exact
          { plane_iff :=
              ⟨fun _ =>
                  Scalar.upper_zero_lt_one
                    (notedAccounted.lt_one_of_lt stops.2.2),
                fun _ => rfl⟩
            side := by
              rintro plane ⟨⟩
              exact sides face (Crossing.leads_of_lead met leads).isFace
            endPoint := noted.endPoint }
      · exact noted
    · exact noted
  · exact struck

end Brushes

end Trace

namespace Tree

variable [LawfulOrder S] {clusterCount : Nat}

/-- Every brush that a motion is clipped to keeps the fields of its trace in agreement. -/
theorem keeps_clip
    (policy : SkipPolicy)
    (motion : Motion S) :
    tree.Keeps policy motion.mask (Probe.clip motion) fun probe =>
      probe.trace.Accounted tree motion.mask ∧
        probe.trace.Struck tree motion := by
  rintro leaf id below lists before after considers ⟨accounted, struck⟩
  cases considers with
  | skipped _ =>
      exact ⟨accounted, struck⟩
  | passed _ _ =>
      exact ⟨accounted, struck⟩
  | met _ obstacle =>
      have canStop := lists.canStop below
      exact
        ⟨accounted.clip canStop obstacle.wanted motion _,
          struck.clip accounted canStop fun _ member =>
            obstacle.hasSide below lists member⟩

/-- So does every brush that a position is tested against. -/
theorem keeps_test
    (policy : SkipPolicy)
    (motion : Motion S) :
    tree.Keeps policy motion.mask (Probe.test motion) fun probe =>
      probe.trace.Accounted tree motion.mask := by
  intro leaf id below lists before after considers accounted
  cases considers with
  | skipped _ =>
      exact accounted
  | passed _ _ =>
      exact accounted
  | met _ obstacle =>
      exact
        accounted.test (lists.canStop below) obstacle.wanted motion _

end Tree

namespace Trace

variable [LawfulOrder S]

theorem Accounted.inUnit
    (accounted : trace.Accounted tree mask) :
    0 ≤ trace.fraction ∧ trace.fraction ≤ 1 := by
  have zeroLtOne : (0 : S) < 1 := LawfulOrder.zero_lt_one
  rcases accounted.stopped with ⟨isOne, _⟩ | ⟨⟨nonneg, lessThanOne⟩, _⟩
  · rw [isOne]
    exact
      ⟨LawfulOrder.le_of_lt zeroLtOne,
        LawfulOrder.le_self LawfulOrder.one_beq_one⟩
  · exact ⟨nonneg, LawfulOrder.le_of_lt lessThanOne⟩

theorem Accounted.isNumber
    (accounted : trace.Accounted tree mask) :
    (trace.fraction == trace.fraction) = true := by
  rcases accounted.stopped with ⟨isOne, _⟩ | ⟨⟨_, lessThanOne⟩, _⟩
  · rw [isOne]
    exact LawfulOrder.one_beq_one
  · exact LawfulOrder.beq_self_of_lt lessThanOne

/-- A motion is stopped when there are contents, and these are wanted ones. -/
theorem Accounted.obstructed
    (accounted : trace.Accounted tree mask) :
    (trace.fraction < 1 ↔ trace.contents ≠ .empty) ∧
      (trace.contents ≠ .empty ↔
        trace.contents.intersects mask = true) := by
  rcases accounted.stopped with ⟨isOne, none⟩ | ⟨⟨_, lessThanOne⟩, wanted⟩
  · have notLess : ¬(1 : S) < 1 := LawfulOrder.lt_irrefl 1
    simp [isOne, none, notLess, Contents.not_intersects_empty]
  · have present : trace.contents ≠ .empty := by
      intro none
      rw [none, Contents.not_intersects_empty] at wanted
      cases wanted
    simp [lessThanOne, present, wanted]

/-- The trace of a sweep is consistent once its end point is set. -/
theorem Accounted.consistent_arrive
    {probe : Probe S}
    (accounted : probe.trace.Accounted tree motion.mask)
    (struck : probe.trace.Struck tree motion)
    (moves : motion.isStill = false) :
    (probe.arrive motion).trace.Consistent tree motion := by
  have notStill {goal : Prop} (still : motion.isStill = true) : goal := by
    rw [moves] at still
    cases still
  unfold Probe.arrive
  split
  · rename_i lessThanOne
    exact
      { inUnit := accounted.inUnit
        isNumber := accounted.isNumber
        obstructed_iff := accounted.obstructed.1
        contents_iff := accounted.obstructed.2
        allSolid := accounted.allSolid
        leaf_iff := accounted.leaf_iff
        leaf := accounted.leaf
        plane_iff := fun _ => struck.plane_iff
        side := fun _ => struck.side
        atStop := by
          intro _ isOne
          have isOne : probe.trace.fraction = 1 := isOne
          rw [isOne] at lessThanOne
          exact absurd lessThanOne (LawfulOrder.lt_irrefl 1)
        underway := fun _ _ => rfl
        atStart := notStill }
  · rename_i notLess
    exact
      { inUnit := accounted.inUnit
        isNumber := accounted.isNumber
        obstructed_iff := accounted.obstructed.1
        contents_iff := accounted.obstructed.2
        allSolid := accounted.allSolid
        leaf_iff := accounted.leaf_iff
        leaf := accounted.leaf
        plane_iff := fun _ => struck.plane_iff
        side := fun _ => struck.side
        atStop := fun _ _ => struck.endPoint
        underway := fun _ less => absurd less notLess
        atStart := notStill }

/-- So is that of the test of a position, which ends where it began. -/
theorem Accounted.consistent_still
    (accounted : trace.Accounted tree motion.mask)
    (still : motion.isStill = true) :
    ({ trace with endPoint := motion.start } : Trace S).Consistent tree
      motion := by
  have notMoves {goal : Prop} (moves : motion.isStill = false) : goal := by
    rw [still] at moves
    cases moves
  exact
    { inUnit := accounted.inUnit
      isNumber := accounted.isNumber
      obstructed_iff := accounted.obstructed.1
      contents_iff := accounted.obstructed.2
      allSolid := accounted.allSolid
      leaf_iff := accounted.leaf_iff
      leaf := accounted.leaf
      plane_iff := notMoves
      side := notMoves
      atStop := notMoves
      underway := notMoves
      atStart := fun _ => rfl }

end Trace

namespace Tree

variable [LawfulOrder S] {clusterCount : Nat}

/-- Where all walks of a tree end, every motion has a consistent trace. -/
theorem exists_consistent_probe
    (ends : tree.EndsWithin tree.depthBound tree.root)
    (closed : tree.records.Closed clusterCount)
    (policy : SkipPolicy)
    (leafLimit : Nat)
    (motion : Motion S) :
    ∃ final,
      tree.probe policy leafLimit motion = .ok final ∧
        final.trace.Consistent tree motion := by
  have atFirst :=
    Trace.accounted_unobstructed tree motion.mask motion.stop
  cases still : motion.isStill with
  | false =>
      obtain ⟨swept, ⟨accounted, struck⟩, probes⟩ :=
        (keeps_clip policy motion).exists_probe_of_moves ends closed still
          ⟨atFirst, Trace.struck_unobstructed tree motion⟩ leafLimit
      exact ⟨_, probes, accounted.consistent_arrive struck still⟩
  | true =>
      obtain ⟨tested, accounted, probes⟩ :=
        (keeps_test policy motion).exists_probe_of_still ends closed still
          atFirst leafLimit
      exact ⟨_, probes, accounted.consistent_still still⟩

end Tree

end

namespace World

/--
Whatever a motion is, points that are no numbers among them, it has a trace below every
head of a level that was read, where the tree there is acyclic, and the trace is
consistent.
-/
theorem exists_consistent_trace
    {bytes : List UInt8}
    {level : Level Float32}
    (accepted : (Level.read bytes).outcome = .ok level)
    {head : Head Float32}
    (rooted : (level.tree head).root.In (level.tree head).records)
    (acyclic : (level.tree head).Acyclic)
    {world : World Float32}
    (uses : world.level = level)
    (motion : Motion Float32) :
    ∃ trace after,
      world.trace head motion = .ok (trace, after) ∧
        trace.Consistent (level.tree head) motion := by
  have closed := (Level.sound_of_read accepted).closed_tree head
  obtain ⟨final, probes, consistent⟩ :=
    Tree.exists_consistent_probe (acyclic.endsWithin closed rooted) closed
      .usual world.config.maxTouchedLeaves motion
  rw [World.trace, uses, probes]
  exact ⟨_, _, rfl, consistent⟩

/-- A point that moves into the wall beside the door. -/
def intoWall : Motion Float32 where
  start := ⟨1, 0, 0⟩
  stop := ⟨-1, 0, 0⟩
  box := BoxHull.unplaced
  mask := .solid

/--
The point is stopped at the wall, a thirty-second in front of it, and its trace is
consistent.
-/
theorem consistent_intoWall :
    ∃ (level : Level Float32) (world after : World Float32)
      (trace : Trace Float32),
      (Level.read Stored.Level.doorway.packed).outcome = .ok level ∧
        ofLevel level = .ok world ∧
        world.trace (.tree (.node 0)) intoWall = .ok (trace, after) ∧
        trace.isObstructed = true ∧
        trace.endPoint = ⟨Float32.ofBits 0x3d000000, 0, 0⟩ ∧
        trace.Consistent (level.tree (.tree (.node 0))) intoWall := by
  have run :
      ((Level.read Stored.Level.doorway.packed).outcome.toOption.bind
        fun level => (ofLevel level).toOption.bind
          fun world =>
            (world.trace (.tree (.node 0)) intoWall).toOption.map
              fun answer =>
                (level.isEmpty, level.full.nodes.size,
                  (level.tree (.tree (.node 0))).goesForward,
                  answer.1.isObstructed, answer.1.endPoint)) =
        some
          (false, 7, true, true, ⟨Float32.ofBits 0x3d000000, 0, 0⟩) := by
    decide +kernel
  simp only [Option.bind_eq_some_iff, Option.map_eq_some_iff,
    toOption_eq_some_iff, Prod.mk.injEq] at run
  obtain ⟨level, accepted, world, loaded, ⟨trace, after⟩, traces, notEmpty,
    nodeCount, forward, obstructed, endPoint⟩ := run
  have hasNode : 0 < level.full.nodes.size := by
    rw [nodeCount]
    decide
  obtain ⟨found, next, tracesAgain, consistent⟩ :=
    exists_consistent_trace accepted
      (Level.rooted_of_mapped notEmpty hasNode)
      (Tree.acyclic_of_goesForward forward) (level_of_ofLevel loaded)
      intoWall
  rw [traces, Except.ok.injEq, Prod.mk.injEq] at tracesAgain
  obtain ⟨rfl, rfl⟩ := tracesAgain
  exact
    ⟨level, world, after, trace, accepted, loaded, traces, obstructed, endPoint,
      consistent⟩

end World

end LevelCollision
