import LevelCollision.Proofs.SkipPolicies
import LevelCollision.Proofs.TouchedLeaves

namespace LevelCollision

/-!
# Tests of positions

The test of a position is a scan. It goes through the leaves that the box touches, and
through the brushes that they list, up to the first brush with the box inside it. That
brushes are skipped, and that leaves are listed up to a limit, cannot be seen but for the
leaves behind the limit.
-/

namespace Trace

variable {S : Type} [Scalar S]

/--
The trace of a box that stands at a point: it is wholly inside a brush of some contents
that a leaf lists, or nothing is in its way.
-/
def standing
    (point : Vec3 S) :
    Option (Nat × Contents) → Trace S
  | some (leaf, contents) =>
      { allSolid := true
        startSolid := true
        fraction := 0
        endPoint := point
        plane := none
        surface := none
        contents := contents
        leaf := some leaf }
  | none =>
      { allSolid := false
        startSolid := false
        fraction := 1
        endPoint := point
        plane := none
        surface := none
        contents := .empty
        leaf := none }

/-- The trace of a box that is inside a brush, and what it was if there is no brush. -/
def heldBy
    (trace : Trace S) :
    Option (Nat × Contents) → Trace S
  | some (leaf, contents) =>
      { trace with
        startSolid := true
        allSolid := true
        fraction := 0
        contents := contents
        leaf := some leaf }
  | none =>
      trace

theorem heldBy_unobstructed
    (point : Vec3 S)
    (hit : Option (Nat × Contents)) :
    (unobstructed point).heldBy hit = standing point hit := by
  cases hit <;> rfl

end Trace

namespace Motion

variable {S : Type} [Scalar S]

/-- The space that a box takes up at the start of its motion. -/
def occupied
    (motion : Motion S) : Box S where
  mins := motion.start + motion.box.mins
  maxs := motion.start + motion.box.maxs

/-- The same space with one unit more on every side. -/
def surroundings
    (motion : Motion S) : Box S where
  mins := motion.start + motion.box.mins - ⟨1, 1, 1⟩
  maxs := motion.start + motion.box.maxs + ⟨1, 1, 1⟩

theorem grow_occupied
    (motion : Motion S) :
    motion.occupied.grow 1 = motion.surroundings :=
  rfl

end Motion

namespace Tree

variable {S : Type} [Scalar S] {tree : Tree S} {motion : Motion S}

/-- The brushes that a leaf lists, and none if its contents miss a mask. -/
def listed
    (tree : Tree S)
    (mask : Contents)
    (leaf : Nat) : List Nat :=
  match tree.records.leaves[leaf]? with
  | some entry =>
      if entry.contents.intersects mask then
        (tree.records.leafBrushes.extract entry.brushes.first
          entry.brushes.stop).toList
      else
        []
  | none =>
      []

/--
The contents of a brush that holds the box at the start of a motion: the brush has faces,
the motion's mask meets its contents, and the start is in front of none of the planes of
its faces once they are pushed out to touch the box.
-/
def holding?
    (tree : Tree S)
    (motion : Motion S)
    (id : Nat) : Option Contents := do
  let brush ← tree.records.brushes[id]?
  let faces ← (tree.faces brush).toOption
  if brush.sides.count ≠ 0 ∧ brush.contents.intersects motion.mask ∧
      ∀ face ∈ faces,
        ¬ 0 < motion.start.dot face.plane.normal -
          motion.pushedDist face.plane then
    some brush.contents
  else
    none

/-- The first brush of a leaf that holds the box. -/
def scanLeaf
    (tree : Tree S)
    (motion : Motion S)
    (leaf : Nat) : Option (Nat × Contents) :=
  (tree.listed motion.mask leaf).findSome? fun id =>
    (tree.holding? motion id).map (leaf, ·)

/-- The first brush of some leaves that holds the box. -/
def scan
    (tree : Tree S)
    (motion : Motion S)
    (leaves : List Nat) : Option (Nat × Contents) :=
  leaves.findSome? (tree.scanLeaf motion)

section Brushes

variable {leaf id : Nat} {before after : Probe S} {contents : Contents}

theorem holding?_eq_some_iff :
    tree.holding? motion id = some contents ↔
      ∃ brush faces,
        tree.Obstacle motion.mask id brush faces ∧
          faces.any motion.startsInFront = false ∧
            brush.contents = contents := by
  simp only [holding?, Option.bind_eq_bind, Option.bind_eq_some_iff,
    toOption_eq_some_iff, Option.ite_none_right_eq_some, Option.some.injEq,
    List.any_eq_false, Motion.startsInFront, decide_eq_true_iff]
  constructor
  · rintro ⟨brush, found, faces, isFaces, ⟨bounded, wanted, behind⟩, same⟩
    exact ⟨brush, faces, ⟨found, wanted, bounded, isFaces⟩, behind, same⟩
  · rintro
      ⟨brush, faces, ⟨found, wanted, bounded, isFaces⟩, behind, same⟩
    exact ⟨brush, found, faces, isFaces, ⟨bounded, wanted, behind⟩, same⟩

/-- Where no brush is skipped, the box is held by a brush that holds it. -/
theorem Considers.trace_test
    (considers :
      tree.Considers .never motion.mask (Probe.test motion) leaf id before
        after) :
    after.trace =
      before.trace.heldBy ((tree.holding? motion id).map (leaf, ·)) := by
  cases considers with
  | skipped skips =>
      cases skips
  | passed _ noObstacle =>
      cases held : tree.holding? motion id with
      | none =>
          rfl
      | some contents =>
          obtain ⟨brush, faces, obstacle, _⟩ := holding?_eq_some_iff.mp held
          exact absurd obstacle (noObstacle brush faces)
  | @met brush faces _ obstacle =>
      change before.trace.test motion brush.contents faces leaf = _
      unfold Trace.test
      cases inFront : faces.any motion.startsInFront with
      | false =>
          have held :
              tree.holding? motion id = some brush.contents :=
            holding?_eq_some_iff.mpr ⟨brush, faces, obstacle, inFront, rfl⟩
          rw [held]
          rfl
      | true =>
          have free : tree.holding? motion id = none := by
            refine Option.eq_none_iff_forall_ne_some.mpr ?_
            intro contents held
            obtain ⟨other, otherFaces, another, behind, _⟩ :=
              holding?_eq_some_iff.mp held
            obtain ⟨_, rfl⟩ := obstacle.unique another
            rw [inFront] at behind
            cases behind
          rw [free]
          rfl

end Brushes

section Scans

variable {clusterCount : Nat} {ids leaves : List Nat} {leaf : Nat}
variable {probe : Probe S}

variable (closed : tree.records.Closed clusterCount)

include closed

/-- A list of brushes is scanned up to the first one that holds the box. -/
theorem exists_considerBrushes_heldBy
    (inRange : ∀ id ∈ ids, id < tree.records.brushes.size)
    (notSolid : probe.trace.allSolid = false)
    (leaf : Nat) :
    ∃ after,
      tree.considerBrushes .never motion.mask (Probe.test motion) leaf ids
            probe =
          .ok after ∧
        after.trace =
          probe.trace.heldBy
            (ids.findSome? fun id =>
              (tree.holding? motion id).map (leaf, ·)) := by
  induction ids generalizing probe with
  | nil =>
      exact ⟨probe, rfl, rfl⟩
  | cons id rest inductionHypothesis =>
      obtain ⟨middle, considers, goesOn⟩ :=
        @considerBrushes_cons S tree clusterCount .never motion.mask
          (Probe.test motion) leaf id closed (inRange id List.mem_cons_self)
          rest probe
      have tested := considers.trace_test
      rw [List.findSome?_cons]
      cases held : tree.holding? motion id with
      | some contents =>
          rw [held] at tested
          have solid : middle.trace.allSolid = true := by
            rw [tested]
            rfl
          rcases goesOn with ⟨_, ends⟩ | ⟨kept, _⟩
          · exact ⟨middle, ends, tested⟩
          · rw [kept solid] at notSolid
            cases notSolid
      | none =>
          rw [held] at tested
          have tested : middle.trace = probe.trace := tested
          rw [← tested] at notSolid ⊢
          rcases goesOn with ⟨solid, _⟩ | ⟨_, goesOn⟩
          · rw [solid] at notSolid
            cases notSolid
          · rw [goesOn]
            exact
              inductionHypothesis
                (fun other member =>
                  inRange other (List.mem_cons_of_mem id member))
                notSolid

/-- So are the brushes of a leaf. -/
theorem exists_visitLeaf_heldBy
    (inRange : leaf < tree.records.leaves.size)
    (notSolid : probe.trace.allSolid = false) :
    ∃ after,
      tree.visitLeaf .never motion.mask (Probe.test motion) leaf probe =
          .ok after ∧
        after.trace = probe.trace.heldBy (tree.scanLeaf motion leaf) := by
  have found : tree.leaf leaf = .ok tree.records.leaves[leaf] :=
    lookup_of_lt inRange
  have isEntry := Array.getElem?_eq_getElem inRange
  cases wanted :
      tree.records.leaves[leaf].contents.intersects motion.mask with
  | false =>
      have unlisted : tree.listed motion.mask leaf = [] := by
        simp only [listed, isEntry, wanted, Bool.false_eq_true, ↓reduceIte]
      rw [scanLeaf, unlisted]
      exact ⟨probe, visitLeaf_of_unwanted found wanted probe, rfl⟩
  | true =>
      have lists :
          lookupSpan tree.records.leafBrushes
              tree.records.leaves[leaf].brushes =
            .ok (tree.listed motion.mask leaf) := by
        refine
          lookupSpan_eq_ok_iff.mpr
            ⟨closed.leafBrushes _ (Array.getElem_mem inRange), ?_⟩
        simp only [listed, isEntry, wanted, ↓reduceIte]
      rw [visitLeaf, found, ok_bind, if_pos wanted, lists, ok_bind]
      exact
        exists_considerBrushes_heldBy closed
          (fun id member =>
            closed.brush id (mem_of_mem_lookupSpan lists member))
          notSolid leaf

/-- So are the brushes of a list of leaves. -/
theorem exists_testLeaves_heldBy
    (inRange : ∀ id ∈ leaves, id < tree.records.leaves.size)
    (notSolid : probe.trace.allSolid = false) :
    ∃ after,
      tree.testLeaves .never motion leaves probe = .ok after ∧
        after.trace = probe.trace.heldBy (tree.scan motion leaves) := by
  induction leaves generalizing probe with
  | nil =>
      exact ⟨probe, rfl, rfl⟩
  | cons leaf rest inductionHypothesis =>
      obtain ⟨middle, visits, tested⟩ :=
        exists_visitLeaf_heldBy closed (inRange leaf List.mem_cons_self)
          notSolid
      rw [testLeaves, visits, ok_bind, scan, List.findSome?_cons]
      cases held : tree.scanLeaf motion leaf with
      | some hit =>
          rw [held] at tested
          have solid : middle.trace.allSolid = true := by
            rw [tested]
            rfl
          rw [if_pos solid]
          exact ⟨middle, rfl, tested⟩
      | none =>
          rw [held] at tested
          have tested : middle.trace = probe.trace := tested
          rw [← tested] at notSolid ⊢
          rw [if_neg (Bool.eq_false_iff.mp notSolid)]
          exact
            inductionHypothesis
              (fun other member =>
                inRange other (List.mem_cons_of_mem leaf member))
              notSolid

/-- The position of a box is tested by a scan of the first leaves that it touches. -/
theorem exists_probe_scan
    {top : Option Nat}
    (ends : tree.EndsWithin tree.depthBound tree.root)
    (still : motion.isStill = true)
    (touches :
      tree.Touches motion.surroundings tree.root leaves top)
    {policy : SkipPolicy}
    (remembers : policy.Remembers)
    (limit : Nat) :
    ∃ probe,
      tree.probe policy limit motion = .ok probe ∧
        probe.trace =
          .standing motion.start (tree.scan motion (leaves.take limit)) := by
  have gathers :
      tree.boxLeaves (motion.occupied.grow 1) limit =
        .ok ⟨(leaves.take limit).toArray, top⟩ := by
    rw [motion.grow_occupied]
    exact touches.boxLeaves ends limit
  have inRange
      (id : Nat)
      (member : id ∈ leaves.take limit) :
      id < tree.records.leaves.size :=
    ends.leaf_lt (touches.below_of_mem (List.mem_of_mem_take member))
  obtain ⟨tested, tests, held⟩ :=
    @exists_testLeaves_heldBy S _ tree motion clusterCount
      (leaves.take limit) (.begin motion) closed inRange rfl
  -- Brushes are skipped by the policy, but this changes nothing.
  obtain ⟨one, other, probes, otherProbes, same⟩ :=
    exists_probe_same_of_still closed remembers
      SkipPolicy.remembers_never ends still limit
  rw [probe_of_tests still gathers tests, Except.ok.injEq] at otherProbes
  refine ⟨one, probes, ?_⟩
  rw [same.trace, ← otherProbes]
  change { tested.trace with endPoint := motion.start } = _
  rw [held, ← Trace.heldBy_unobstructed]
  cases tree.scan motion (leaves.take limit) with
  | none =>
      rfl
  | some hit =>
      rfl

end Scans

end Tree

namespace World

/-- The trace of a box that stands still is the one of the scan. -/
theorem exists_trace_scan
    {S : Type} [Scalar S]
    {world : World S}
    {head : Head S}
    {motion : Motion S}
    {clusterCount : Nat}
    {leaves : List Nat}
    {top : Option Nat}
    (closed : (world.level.tree head).records.Closed clusterCount)
    (ends :
      (world.level.tree head).EndsWithin (world.level.tree head).depthBound
        (world.level.tree head).root)
    (still : motion.isStill = true)
    (touches :
      (world.level.tree head).Touches motion.surroundings
        (world.level.tree head).root leaves top) :
    ∃ after,
      world.trace head motion =
        .ok
          (.standing motion.start
              ((world.level.tree head).scan motion
                (leaves.take world.config.maxTouchedLeaves)),
            after) := by
  obtain ⟨probe, probes, scanned⟩ :=
    Tree.exists_probe_scan closed ends still touches
      (SkipPolicy.remembers_bySlot 16) world.config.maxTouchedLeaves
  have probes :
      (world.level.tree head).probe .usual world.config.maxTouchedLeaves
          motion =
        .ok probe :=
    probes
  rw [trace, probes, ok_bind, scanned]
  exact ⟨_, rfl⟩

end World

end LevelCollision
