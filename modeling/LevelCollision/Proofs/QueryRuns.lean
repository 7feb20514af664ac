import LevelCollision.Proofs.SweepRuns
import LevelCollision.Query.Visibility

namespace LevelCollision

/-!
# Runs of queries

Where all walks of a tree end, every query of the tree has an answer, and the leaves
that it names lie below the root. Whatever holds of a motion that met nothing, and is
kept by every brush of the tree that is considered, holds of what becomes of the motion.
-/

namespace Tree

variable {S : Type} {tree : Tree S} {clusterCount levels : Nat} {child : Child}

/-- Whether leaves below a child are in a row can be told. -/
theorem EndsWithin.exists_childVisible
    (ends : tree.EndsWithin levels child)
    (row : BitRow) :
    ∃ seen, tree.childVisible row levels child = .ok seen := by
  induction ends with
  | @leaf levels id inRange =>
      have found : tree.leaf id = .ok tree.records.leaves[id] :=
        lookup_of_lt inRange
      refine ⟨tree.records.leaves[id].cluster.any row.get, ?_⟩
      rw [childVisible, leafVisible, found]
      rfl
  | @node levels id node plane foundNode _ _ inductionHypothesis =>
      obtain ⟨inFront, seenFront⟩ := inductionHypothesis .front
      obtain ⟨behind, seenBack⟩ := inductionHypothesis .back
      have seenFront :
          tree.childVisible row levels node.front = .ok inFront := seenFront
      rw [childVisible, foundNode, ok_bind, seenFront, ok_bind]
      cases inFront with
      | true =>
          exact ⟨true, rfl⟩
      | false =>
          exact ⟨behind, seenBack⟩

section Keeping

variable {policy : SkipPolicy} {mask : Contents} {encounter : Encounter S}
variable {holds : Probe S → Prop}

/-- What holds of a probe is kept by every brush of the tree that is considered. -/
def Keeps
    (tree : Tree S)
    (policy : SkipPolicy)
    (mask : Contents)
    (encounter : Encounter S)
    (holds : Probe S → Prop) : Prop :=
  ∀ leaf id,
    tree.Below tree.root (.leaf leaf) →
      tree.ListsBrush mask leaf id →
        ∀ before after,
          tree.Considers policy mask encounter leaf id before after →
            holds before → holds after

/-- A visit of a leaf of the tree keeps what its brushes keep. -/
theorem Keeps.exists_visitLeaf
    (keeps : tree.Keeps policy mask encounter holds)
    (closed : tree.records.Closed clusterCount)
    {leaf : Nat}
    (inRange : leaf < tree.records.leaves.size)
    (below : tree.Below tree.root (.leaf leaf))
    {probe : Probe S}
    (first : holds probe) :
    ∃ after,
      tree.visitLeaf policy mask encounter leaf probe = .ok after ∧
        holds after :=
  exists_visitLeaf_keeping closed inRange
    (fun id lists => keeps leaf id below lists) first

end Keeping

variable [Scalar S]

/-- The leaves that a box touches below a child are listed behind those before. -/
theorem EndsWithin.exists_gather
    (ends : tree.EndsWithin levels child)
    (box : Box S)
    (limit : Nat)
    {within : Nat → Prop}
    (covers : ∀ leaf, tree.Below child (.leaf leaf) → within leaf)
    {list : LeafList}
    (listed : ∀ leaf ∈ list.leaves, within leaf) :
    ∃ after,
      tree.gather box limit levels child list = .ok after ∧
        ∀ leaf ∈ after.leaves, within leaf := by
  induction ends generalizing list with
  | @leaf levels id _ =>
      refine ⟨list.add limit id, by cases levels <;> rfl, ?_⟩
      intro leaf member
      unfold LeafList.add at member
      split at member
      · rcases Array.mem_push.mp member with inList | isAdded
        · exact listed leaf inList
        · subst isAdded
          exact covers leaf (.refl _)
      · exact listed leaf member
  | @node levels id node plane foundNode foundPlane _ inductionHypothesis =>
      have goesOn
          (side : Side)
          {list : LeafList}
          (listed : ∀ leaf ∈ list.leaves, within leaf) :=
        inductionHypothesis side
          (fun leaf below => covers leaf (below.ofChild foundNode)) listed
      rw [gather, foundNode, ok_bind, foundPlane, ok_bind]
      cases plane.boxSide box with
      | front =>
          exact goesOn .front listed
      | back =>
          exact goesOn .back listed
      | both =>
          obtain ⟨middle, gathers, middleListed⟩ :=
            @goesOn .front (list.splitAt id) listed
          have gathers :
              tree.gather box limit levels node.front (list.splitAt id) =
                .ok middle := gathers
          simp only [gathers, ok_bind]
          exact goesOn .back middleListed

section Queries

variable (ends : tree.EndsWithin tree.depthBound tree.root)

include ends

/-- A point has a leaf below the root. -/
theorem exists_pointLeaf
    (point : Vec3 S) :
    ∃ leaf,
      tree.pointLeaf point = .ok leaf ∧
        tree.Below tree.root (.leaf leaf) :=
  ends.exists_descend point

/-- A point has contents. -/
theorem exists_pointContents
    (point : Vec3 S) :
    ∃ contents, tree.pointContents point = .ok contents := by
  obtain ⟨id, found, below⟩ := exists_pointLeaf ends point
  have foundLeaf : tree.leaf id = .ok _ := lookup_of_lt (ends.leaf_lt below)
  rw [pointContents, found, ok_bind, foundLeaf]
  exact ⟨_, rfl⟩

/-- The leaves that a box touches lie below the root. -/
theorem exists_boxLeaves
    (box : Box S)
    (limit : Nat) :
    ∃ list,
      tree.boxLeaves box limit = .ok list ∧
        ∀ leaf ∈ list.leaves, tree.Below tree.root (.leaf leaf) := by
  refine ends.exists_gather box limit (fun _ below => below) ?_
  intro leaf member
  exact absurd member (Array.not_mem_empty leaf)

end Queries

section Motions

variable {policy : SkipPolicy} {holds : Probe S → Prop} {motion : Motion S}

/-- Tests of leaves of the tree come to an end and keep what its brushes keep. -/
theorem Keeps.exists_testLeaves
    (keeps : tree.Keeps policy motion.mask (Probe.test motion) holds)
    (closed : tree.records.Closed clusterCount)
    {ids : List Nat}
    (listed :
      ∀ id ∈ ids,
        id < tree.records.leaves.size ∧ tree.Below tree.root (.leaf id))
    {probe : Probe S}
    (first : holds probe) :
    ∃ after,
      tree.testLeaves policy motion ids probe = .ok after ∧
        holds after := by
  induction ids generalizing probe with
  | nil =>
      exact ⟨probe, rfl, first⟩
  | cons id rest inductionHypothesis =>
      obtain ⟨inRange, below⟩ := listed id List.mem_cons_self
      obtain ⟨middle, visits, middleHolds⟩ :=
        keeps.exists_visitLeaf closed inRange below first
      rw [testLeaves, visits, ok_bind]
      split
      · exact ⟨middle, rfl, middleHolds⟩
      · exact
          inductionHypothesis
            (fun other member =>
              listed other (List.mem_cons_of_mem id member))
            middleHolds

/-- A motion that goes somewhere becomes what the brushes of the tree keep. -/
theorem Keeps.exists_probe_of_moves
    (keeps : tree.Keeps policy motion.mask (Probe.clip motion) holds)
    (ends : tree.EndsWithin tree.depthBound tree.root)
    (closed : tree.records.Closed clusterCount)
    (moves : motion.isStill = false)
    (first : holds (.begin motion))
    (leafLimit : Nat) :
    ∃ swept,
      holds swept ∧
        tree.probe policy leafLimit motion = .ok (swept.arrive motion) := by
  obtain ⟨swept, sweeps, sweptHolds⟩ :=
    ends.exists_sweep_keeping
      (fun id inRange below _ before =>
        keeps.exists_visitLeaf closed inRange below before)
      tree.depthBound_le_sweepBound motion.segment first
  exact ⟨swept, sweptHolds, probe_of_sweep moves sweeps⟩

/-- Whatever a motion that went somewhere became was kept by the brushes of the tree. -/
theorem Keeps.exists_swept_of_probe
    (keeps : tree.Keeps policy motion.mask (Probe.clip motion) holds)
    (moves : motion.isStill = false)
    (first : holds (.begin motion))
    {leafLimit : Nat}
    {final : Probe S}
    (probes : tree.probe policy leafLimit motion = .ok final) :
    ∃ swept, holds swept ∧ swept.arrive motion = final := by
  obtain ⟨swept, sweeps, arrives⟩ := exists_sweep_of_probe moves probes
  refine ⟨swept, ?_, arrives⟩
  refine holds_of_sweep (fun leaf below before after held visited => ?_)
    first sweeps
  exact
    holds_of_visitLeaf (fun id lists => keeps leaf id below lists) held
      visited

/-- What becomes of a motion that goes nowhere is told by the leaves that it touches. -/
theorem probe_of_tests
    {list : LeafList}
    {leafLimit : Nat}
    {tested : Probe S}
    (still : motion.isStill = true)
    (gathers :
      tree.boxLeaves
          (Box.grow
            { mins := motion.start + motion.box.mins
              maxs := motion.start + motion.box.maxs }
            1)
          leafLimit =
        .ok list)
    (tests :
      tree.testLeaves policy motion list.leaves.toList (.begin motion) =
        .ok tested) :
    tree.probe policy leafLimit motion =
      .ok
        { tested with
          trace := { tested.trace with endPoint := motion.start } } := by
  rw [probe, if_pos still, probePosition]
  simp only [gathers, ok_bind, tests]
  rfl

/-- So does a motion that goes nowhere, but for the point in which it ends. -/
theorem Keeps.exists_probe_of_still
    (keeps : tree.Keeps policy motion.mask (Probe.test motion) holds)
    (ends : tree.EndsWithin tree.depthBound tree.root)
    (closed : tree.records.Closed clusterCount)
    (still : motion.isStill = true)
    (first : holds (.begin motion))
    (leafLimit : Nat) :
    ∃ tested,
      holds tested ∧
        tree.probe policy leafLimit motion =
          .ok
            { tested with
              trace := { tested.trace with endPoint := motion.start } } := by
  obtain ⟨list, gathers, listed⟩ :=
    exists_boxLeaves ends
      (Box.grow
        { mins := motion.start + motion.box.mins
          maxs := motion.start + motion.box.maxs }
        1)
      leafLimit
  have listedInRange :
      ∀ id ∈ list.leaves.toList,
        id < tree.records.leaves.size ∧ tree.Below tree.root (.leaf id) := by
    intro id member
    have below := listed id (Array.mem_toList_iff.mp member)
    exact ⟨ends.leaf_lt below, below⟩
  obtain ⟨tested, tests, testedHolds⟩ :=
    keeps.exists_testLeaves closed listedInRange first
  exact ⟨tested, testedHolds, probe_of_tests still gathers tests⟩

end Motions

end Tree

end LevelCollision
