import LevelCollision.Proofs.OfferedHeads
import LevelCollision.Proofs.PackedLevel
import LevelCollision.Proofs.QueryRuns

namespace LevelCollision

/-!
# Walks with and without an end

A level is read whether or not its nodes lead back to themselves: each child is only
checked to exist. What is asked below the head of a model has an answer for every point,
box, motion and row exactly when no node below the head lies below one of its own
children. Where one does, a look for a cluster of a row without clusters goes through
every child, and so comes back to that node again and again.
-/

namespace Tree

variable {S : Type} {tree : Tree S} {clusterCount levels : Nat} {child : Child}

/-- Walks from the root end within some levels, whatever they are asked. -/
structure WalksEndWithin
    [Scalar S]
    (tree : Tree S)
    (levels : Nat) : Prop where
  point :
    ∀ point, ∃ leaf, tree.descend point levels tree.root = .ok leaf
  box :
    ∀ box limit,
      ∃ list, tree.gather box limit levels tree.root .nothing = .ok list
  motion :
    ∀ policy motion,
      ∃ probe,
        tree.sweep motion
            (tree.visitLeaf policy motion.mask (Probe.clip motion))
            levels tree.root motion.segment (.begin motion) =
          .ok probe
  row :
    ∀ row, ∃ seen, tree.childVisible row levels tree.root = .ok seen

/-- Where each walk comes to a leaf, no walk goes on for ever. -/
theorem EndsWithin.walksEndWithin
    [Scalar S]
    (ends : tree.EndsWithin levels tree.root)
    (closed : tree.records.Closed clusterCount) :
    tree.WalksEndWithin levels where
  point point := by
    obtain ⟨leaf, descends, _⟩ := ends.exists_descend point
    exact ⟨leaf, descends⟩
  box box limit := by
    obtain ⟨list, gathers, _⟩ :
        ∃ list,
          tree.gather box limit levels tree.root .nothing = .ok list ∧
            ∀ leaf ∈ list.leaves, True :=
      ends.exists_gather box limit (fun _ _ => True.intro)
        (fun _ _ => True.intro)
    exact ⟨list, gathers⟩
  motion policy motion := by
    have visits :
        ∀ id < tree.records.leaves.size,
          tree.Below tree.root (.leaf id) →
            ∀ before, True →
              ∃ after,
                tree.visitLeaf policy motion.mask (Probe.clip motion) id
                      before =
                    .ok after ∧
                  True :=
      fun _ inRange _ _ held =>
        exists_visitLeaf_keeping closed inRange (fun _ _ _ _ _ kept => kept)
          held
    obtain ⟨probe, sweeps, _⟩ :=
      ends.exists_sweep_keeping visits (Nat.le_refl levels) motion.segment
        True.intro
    exact ⟨probe, sweeps⟩
  row row := ends.exists_childVisible row

section Cycles

/-- The row without clusters. -/
def noClusters : BitRow :=
  .clear 0

/-- No leaf is in a cluster of the row without clusters. -/
theorem childVisible_leaf_noClusters
    {id : Nat}
    (inRecords : (Child.leaf id).In tree.records)
    (levels : Nat) :
    tree.childVisible noClusters levels (.leaf id) = .ok false := by
  have found : tree.leaf id = .ok tree.records.leaves[id] :=
    lookup_of_lt inRecords
  have none : tree.records.leaves[id].cluster.any noClusters.get = false := by
    cases tree.records.leaves[id].cluster with
    | none =>
        rfl
    | some cluster =>
        simp [BitRow.get, noClusters, BitRow.clear]
  rw [childVisible, leafVisible, found, ok_bind, none]
  rfl

/-- A look for a cluster of that row finds none, if it ends. -/
theorem childVisible_noClusters_cases
    (closed : tree.records.Closed clusterCount)
    (inRecords : child.In tree.records)
    (levels : Nat) :
    tree.childVisible noClusters levels child = .ok false ∨
      tree.childVisible noClusters levels child = .error .endless := by
  induction levels generalizing child with
  | zero =>
      cases child with
      | leaf id =>
          exact .inl (childVisible_leaf_noClusters inRecords 0)
      | node id =>
          exact .inr rfl
  | succ levels inductionHypothesis =>
      cases child with
      | leaf id =>
          exact .inl (childVisible_leaf_noClusters inRecords (levels + 1))
      | node id =>
          have found : tree.node id = .ok tree.records.nodes[id] :=
            lookup_of_lt inRecords
          have children := closed.nodeChild _ (mem_of_lookup_eq_ok found)
          rw [childVisible, found, ok_bind]
          rcases inductionHypothesis (children .front) with
              inFront | inFront
          · change tree.childVisible noClusters levels
                tree.records.nodes[id].front = .ok false at inFront
            rw [inFront, ok_bind]
            exact inductionHypothesis (children .back)
          · change tree.childVisible noClusters levels
                tree.records.nodes[id].front = .error .endless at inFront
            rw [inFront]
            exact .inr rfl

/--
Above a node that lies below one of its own children, such a look does not end, however
many levels it may descend.
-/
theorem childVisible_noClusters_of_cycle
    (closed : tree.records.Closed clusterCount)
    {id : Nat}
    {next : Child}
    (leads : tree.HasChild id next)
    (returns : tree.Below next (.node id))
    (inRecords : child.In tree.records)
    (below : tree.Below child (.node id))
    (levels : Nat) :
    tree.childVisible noClusters levels child = .error .endless := by
  -- From each child on the way to the node, another one on that way is gone to.
  induction levels generalizing child with
  | zero =>
      cases below with
      | refl =>
          rfl
      | step _ _ =>
          rfl
  | succ levels inductionHypothesis =>
      obtain ⟨start, onward, shape, hasChild, stillBelow⟩ :
          ∃ start onward,
            child = .node start ∧
              tree.HasChild start onward ∧
                tree.Below onward (.node id) := by
        cases below with
        | refl =>
            exact ⟨id, next, rfl, leads, returns⟩
        | step hasChild lower =>
            exact ⟨_, _, rfl, hasChild, lower⟩
      subst shape
      obtain ⟨node, side, foundNode, rfl⟩ := hasChild
      have children := closed.nodeChild node (Array.mem_of_getElem? foundNode)
      have found : tree.node start = .ok node := lookup_eq_ok_iff.mpr foundNode
      have endless := inductionHypothesis (children side) stillBelow
      rw [childVisible, found, ok_bind]
      cases side with
      | front =>
          change tree.childVisible noClusters levels node.front =
            .error .endless at endless
          rw [endless]
          rfl
      | back =>
          rcases childVisible_noClusters_cases closed (children .front)
              levels with
              inFront | inFront
          · change tree.childVisible noClusters levels node.front =
              .ok false at inFront
            rw [inFront, ok_bind]
            exact endless
          · change tree.childVisible noClusters levels node.front =
              .error .endless at inFront
            rw [inFront]
            rfl

/-- A point whose side of a node is that node again is never led to a leaf. -/
theorem descend_of_self
    [Scalar S]
    {point : Vec3 S}
    {id : Nat}
    {node : Node}
    {plane : Plane S}
    (found : tree.node id = .ok node)
    (foundPlane : tree.plane node.plane = .ok plane)
    (self : node.child (plane.pointSide point) = .node id)
    (steps : Nat) :
    tree.descend point steps (.node id) = .error .endless := by
  induction steps with
  | zero =>
      rfl
  | succ steps inductionHypothesis =>
      rw [descend, found, ok_bind, foundPlane, ok_bind, self]
      exact inductionHypothesis

end Cycles

end Tree

/-- The level of two rooms, with a node that has itself in front of its plane. -/
def Stored.Level.endlessHall : Stored.Level :=
  { doorway with
    nodes := [{ plane := 0, front := 0, back := -1 }] }

namespace Level

variable {bytes : List UInt8} {level : Level Float32} {model : Model Float32}

/--
Below the head of a model of a level that was read, all walks end within as many levels
as there are nodes, if no node there lies below one of its own children. If one does,
the walk that looks for a cluster of the row without clusters ends within no number of
levels.
-/
theorem walksEnd_or_cyclic
    (accepted : (read bytes).outcome = .ok level)
    (member : model ∈ level.own.models) :
    ((level.tree model.treeHead).Acyclic →
        (level.tree model.treeHead).WalksEndWithin
          (level.tree model.treeHead).depthBound) ∧
      (¬(level.tree model.treeHead).Acyclic →
        ∀ levels,
          (level.tree model.treeHead).childVisible Tree.noClusters levels
              (level.tree model.treeHead).root =
            .error .endless) := by
  have sound := sound_of_read accepted
  have closed := sound.closed_tree model.treeHead
  have rooted :
      (level.tree model.treeHead).root.In
        (level.tree model.treeHead).records := by
    rw [records_tree]
    exact (sound.root_in_own member).withBoxHull
  constructor
  · intro acyclic
    exact (acyclic.endsWithin closed rooted).walksEndWithin closed
  · intro cyclic levels
    simp only [Tree.Acyclic, not_forall, not_not] at cyclic
    obtain ⟨id, next, fromRoot, leads, returns⟩ := cyclic
    exact
      Tree.childVisible_noClusters_of_cycle closed leads returns rooted
        fromRoot levels

/-- In the level of two rooms all walks below the head of the world end. -/
theorem walksEnd_doorway :
    ∃ level model,
      (read Stored.Level.doorway.packed).outcome = .ok level ∧
        model ∈ level.own.models ∧
        (level.tree model.treeHead).Acyclic ∧
        (level.tree model.treeHead).WalksEndWithin
          (level.tree model.treeHead).depthBound := by
  have run :
      ((read Stored.Level.doorway.packed).outcome.toOption.bind
        fun level => level.own.models[0]?.map
          fun model => (level.tree model.treeHead).goesForward) =
        some true := by
    decide +kernel
  simp only [Option.bind_eq_some_iff, Option.map_eq_some_iff,
    toOption_eq_some_iff] at run
  obtain ⟨level, accepted, model, found, forward⟩ := run
  have member := Array.mem_of_getElem? found
  have acyclic := Tree.acyclic_of_goesForward forward
  exact
    ⟨level, model, accepted, member, acyclic,
      (walksEnd_or_cyclic accepted member).1 acyclic⟩

/--
A level is read although its only node leads back to itself. A point in front of the
plane of that node is never led to a leaf.
-/
theorem read_endlessHall :
    ∃ level model,
      (read Stored.Level.endlessHall.packed).outcome = .ok level ∧
        model ∈ level.own.models ∧
        ¬(level.tree model.treeHead).Acyclic ∧
        ∀ steps,
          (level.tree model.treeHead).descend ⟨1, 0, 0⟩ steps
              (level.tree model.treeHead).root =
            .error .endless := by
  have run :
      ((read Stored.Level.endlessHall.packed).outcome.toOption.bind
        fun level => level.own.models[0]?.bind
          fun model => ((level.tree model.treeHead).node 0).toOption.bind
            fun node =>
              ((level.tree model.treeHead).plane node.plane).toOption.map
                fun plane =>
                  ((level.tree model.treeHead).root, node.front,
                    plane.pointSide ⟨1, 0, 0⟩)) =
        some (.node 0, .node 0, .front) := by
    decide +kernel
  simp only [Option.bind_eq_some_iff, Option.map_eq_some_iff,
    toOption_eq_some_iff, Prod.mk.injEq] at run
  obtain ⟨level, accepted, model, found, node, foundNode, plane, foundPlane,
    root, self, inFront⟩ := run
  refine ⟨level, model, accepted, Array.mem_of_getElem? found, ?_, ?_⟩
  · intro acyclic
    refine acyclic 0 (.node 0) ?_ ?_ (.refl _)
    · rw [root]
      exact .refl _
    · exact ⟨node, .front, lookup_eq_ok_iff.mp foundNode, self⟩
  · intro steps
    rw [root]
    refine Tree.descend_of_self foundNode foundPlane ?_ steps
    rw [inFront]
    exact self

end Level

end LevelCollision
