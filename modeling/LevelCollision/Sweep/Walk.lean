import LevelCollision.Query.BoxLeaves
import LevelCollision.Sweep.LeafVisit

namespace LevelCollision

/-!
# Walking a motion through a tree

The walk carries the part of the motion that is still to be made. Where the box
stays on one side of a plane, that part goes to the child of that side. Elsewhere
it is split in two: up to the plane on the near side, and then on from the plane on
the far side. The two parts overlap by twice the reach of the box and a tolerance,
so that no leaf the box passes through is left out.

A part that begins where the motion was already stopped is not walked.
-/

/-- Part of a motion, by its two ends as fractions of the motion and as points. -/
structure Segment (S : Type) where
  fromFraction : S
  toFraction : S
  fromPoint : Vec3 S
  toPoint : Vec3 S
  deriving DecidableEq

/-- How a segment is split at a plane. -/
structure Split (S : Type) where
  /-- The side on which the segment begins. -/
  near : Side
  /-- The fraction of the segment up to which it is on the near side. -/
  nearStop : S
  /-- The fraction of the segment from which it is on the far side. -/
  farStart : S
  deriving DecidableEq

/-- The parts of a segment that go to the children of a node. -/
inductive Routing (S : Type) where
  | whole (side : Side)
  | parts (split : Split S)
  deriving DecidableEq

variable {S : Type} [Scalar S]

/-- The whole of a motion. -/
def Motion.segment
    (motion : Motion S) : Segment S where
  fromFraction := 0
  toFraction := 1
  fromPoint := motion.start
  toPoint := motion.stop

namespace Segment

/-- The fraction of the motion at a fraction of the segment. -/
def fractionAt
    (segment : Segment S)
    (part : S) : S :=
  segment.fromFraction + (segment.toFraction - segment.fromFraction) * part

/-- The point at a fraction of the segment. -/
def pointAt
    (segment : Segment S)
    (part : S) : Vec3 S :=
  segment.fromPoint + (segment.toPoint - segment.fromPoint).scale part

/-- The segment up to a fraction of it. -/
def upTo
    (segment : Segment S)
    (part : S) : Segment S :=
  { segment with
    toFraction := segment.fractionAt part
    toPoint := segment.pointAt part }

/-- The segment from a fraction of it onwards. -/
def onwards
    (segment : Segment S)
    (part : S) : Segment S :=
  { segment with
    fromFraction := segment.fractionAt part
    fromPoint := segment.pointAt part }

end Segment

namespace Split

/--
Split a segment whose ends are at these distances in front of a plane, for a box
that reaches this far from its point.
-/
def ofDists
    (before after offset : S) : Split S :=
  if before < after then
    let inverse := 1 / (before - after)
    { near := .back
      nearStop :=
        Scalar.clampToUnit
          ((before - offset + Scalar.distEpsilon) * inverse)
      farStart :=
        Scalar.clampToUnit
          ((before + offset + Scalar.distEpsilon) * inverse) }
  else if after < before then
    let inverse := 1 / (before - after)
    { near := .front
      nearStop :=
        Scalar.clampToUnit
          ((before + offset + Scalar.distEpsilon) * inverse)
      farStart :=
        Scalar.clampToUnit
          ((before - offset - Scalar.distEpsilon) * inverse) }
  else
    { near := .front
      nearStop := 1
      farStart := 0 }

end Split

/-- How far the moving box reaches along the normal of a plane. -/
def Motion.offset
    (motion : Motion S)
    (plane : Plane S) : S :=
  match plane.kind.axis? with
  | some axis =>
      motion.reach.get axis
  | none =>
      if motion.isPoint then
        0
      else
        Scalar.abs (motion.reach.x * plane.normal.x) +
          Scalar.abs (motion.reach.y * plane.normal.y) +
          Scalar.abs (motion.reach.z * plane.normal.z)

/-- Where the parts of a segment go at a plane. -/
def Segment.route
    (segment : Segment S)
    (motion : Motion S)
    (plane : Plane S) : Routing S :=
  let before := plane.pointDist segment.fromPoint
  let after := plane.pointDist segment.toPoint
  let offset := motion.offset plane
  if offset ≤ before ∧ offset ≤ after then
    .whole .front
  else if before ≤ -offset ∧ after ≤ -offset then
    .whole .back
  else
    .parts (.ofDists before after offset)

namespace Tree

/-- Walk a segment through the tree below a child, within a number of levels. -/
def sweep
    (tree : Tree S)
    (motion : Motion S)
    (visit : Nat → Probe S → Except Fault (Probe S)) :
    Nat → Child → Segment S → Probe S → Except Fault (Probe S)
  | levels, child, segment, probe =>
      if probe.trace.fraction ≤ segment.fromFraction then
        .ok probe
      else
        match child, levels with
        | .leaf id, _ =>
            visit id probe
        | .node _, 0 =>
            .error .endless
        | .node id, levels + 1 => do
            let node ← tree.node id
            let plane ← tree.plane node.plane
            match segment.route motion plane with
            | .whole side =>
                tree.sweep motion visit levels (node.child side) segment probe
            | .parts split =>
                let probe ←
                  tree.sweep motion visit levels (node.child split.near)
                    (segment.upTo split.nearStop) probe
                tree.sweep motion visit levels (node.child split.near.opposite)
                  (segment.onwards split.farStart) probe

/--
Levels that a walk of a motion may descend. The walk of a motion through a node
that leads back to itself may still end, so there are more than in a walk that
meets no node twice.
-/
def sweepBound
    (tree : Tree S) : Nat :=
  8 * (tree.depthBound + 8)

/-- Test leaves one after the other until the box is inside a brush. -/
def testLeaves
    (tree : Tree S)
    (policy : SkipPolicy)
    (motion : Motion S) :
    List Nat → Probe S → Except Fault (Probe S)
  | [], probe =>
      .ok probe
  | id :: rest, probe => do
      let tested ←
        tree.visitLeaf policy motion.mask (Probe.test motion) id probe
      if tested.trace.allSolid then
        return tested
      else
        tree.testLeaves policy motion rest tested

/--
Test the position of a motion that goes nowhere, against the first leaves, up to a
limit, that the box grown by one unit touches.
-/
def probePosition
    (tree : Tree S)
    (policy : SkipPolicy)
    (leafLimit : Nat)
    (motion : Motion S) : Except Fault (Probe S) := do
  let occupied : Box S :=
    { mins := motion.start + motion.box.mins
      maxs := motion.start + motion.box.maxs }
  let list ← tree.boxLeaves (occupied.grow 1) leafLimit
  let probe ←
    tree.testLeaves policy motion list.leaves.toList (.begin motion)
  return { probe with trace := { probe.trace with endPoint := motion.start } }

/-- Make a motion that goes somewhere. -/
def probeSweep
    (tree : Tree S)
    (policy : SkipPolicy)
    (motion : Motion S) : Except Fault (Probe S) := do
  let visit := tree.visitLeaf policy motion.mask (Probe.clip motion)
  let probe ←
    tree.sweep motion visit tree.sweepBound tree.root motion.segment
      (.begin motion)
  if probe.trace.fraction < 1 then
    return { probe with
      trace :=
        { probe.trace with
          endPoint := motion.pointAt probe.trace.fraction } }
  else
    return probe

/-- Make a motion, or test its position if it goes nowhere. -/
def probe
    (tree : Tree S)
    (policy : SkipPolicy)
    (leafLimit : Nat)
    (motion : Motion S) : Except Fault (Probe S) :=
  if motion.isStill then
    tree.probePosition policy leafLimit motion
  else
    tree.probeSweep policy motion

end Tree

end LevelCollision
