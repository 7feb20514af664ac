import LevelCollision.Proofs.Outcomes
import LevelCollision.Proofs.References
import LevelCollision.Query.PointLeaf

namespace LevelCollision

/-!
# Trees without cycles

A tree is acyclic when no node below its root lies below one of its own children.
The ancestors of a node are then different nodes, so that a walk comes to a leaf
before it has taken as many steps as there are nodes. `EndsWithin` is the tree as
such a walk sees it, and proofs about walks go by induction on it.
-/

namespace Tree

variable {S : Type} {tree : Tree S}

/-- A node has a child on one of its sides. -/
def HasChild
    (tree : Tree S)
    (id : Nat)
    (child : Child) : Prop :=
  ∃ node side,
    tree.records.nodes[id]? = some node ∧ node.child side = child

/-- The second child lies below the first one, or is the first one. -/
inductive Below
    (tree : Tree S) :
    Child → Child → Prop where
  | refl
      (child : Child) :
      Below tree child child
  | step
      {id : Nat}
      {child lower : Child} :
      tree.HasChild id child →
      Below tree child lower →
      Below tree (.node id) lower

/-- No node below the root lies below one of its own children. -/
def Acyclic
    (tree : Tree S) : Prop :=
  ∀ id child,
    tree.Below tree.root (.node id) →
      tree.HasChild id child → ¬tree.Below child (.node id)

theorem Below.descend
    {upper : Child}
    {id : Nat}
    {child : Child}
    (below : tree.Below upper (.node id))
    (hasChild : tree.HasChild id child) :
    tree.Below upper child := by
  generalize shape : Child.node id = lower at below
  induction below with
  | refl =>
      subst shape
      exact .step hasChild (.refl child)
  | step first _ inductionHypothesis =>
      exact .step first (inductionHypothesis shape)

/-- What lies below a child of a node lies below the node. -/
theorem Below.ofChild
    {id : Nat}
    {node : Node}
    {side : Side}
    {lower : Child}
    (below : tree.Below (node.child side) lower)
    (found : tree.node id = .ok node) :
    tree.Below (.node id) lower :=
  .step ⟨node, side, lookup_eq_ok_iff.mp found, rfl⟩ below

/-- A tree whose nodes have only later nodes as children is acyclic. -/
theorem acyclic_of_lt
    (later : ∀ id next, tree.HasChild id (.node next) → id < next) :
    tree.Acyclic := by
  have notBefore
      {upper lower : Child}
      (below : tree.Below upper lower) :
      ∀ last,
        lower = .node last →
          ∃ first, upper = .node first ∧ first ≤ last := by
    induction below with
    | refl child =>
        intro last isLast
        exact ⟨last, isLast, Nat.le_refl last⟩
    | @step id child _ hasChild _ inductionHypothesis =>
        intro last isLast
        obtain ⟨next, isNext, atMost⟩ := inductionHypothesis last isLast
        subst isNext
        exact
          ⟨id, rfl, Nat.le_of_lt (Nat.lt_of_lt_of_le (later id next hasChild) atMost)⟩
  intro id child _ hasChild below
  obtain ⟨next, isNext, atMost⟩ := notBefore below id rfl
  subst isNext
  exact absurd (later id next hasChild) (Nat.not_lt.mpr atMost)

/-- Whether all nodes have only later nodes as children. -/
def goesForward
    (tree : Tree S) : Bool :=
  let later (id : Nat) : Child → Bool
    | .node next => decide (id < next)
    | .leaf _ => true
  tree.records.nodes.toList.zipIdx.all fun entry =>
    later entry.2 entry.1.front && later entry.2 entry.1.back

/-- Such a tree is acyclic. -/
theorem acyclic_of_goesForward
    (forward : tree.goesForward = true) :
    tree.Acyclic := by
  refine acyclic_of_lt ?_
  rintro id next ⟨node, side, found, isNext⟩
  have member : (node, id) ∈ tree.records.nodes.toList.zipIdx := by
    rw [List.mem_zipIdx_iff_getElem?, Array.getElem?_toList]
    exact found
  have later := List.all_eq_true.mp forward _ member
  rw [Bool.and_eq_true] at later
  cases side with
  | front =>
      have isFront : node.front = .node next := isNext
      rw [isFront] at later
      exact of_decide_eq_true later.1
  | back =>
      have isBack : node.back = .node next := isNext
      rw [isBack] at later
      exact of_decide_eq_true later.2

/-- Every walk below a child comes to a leaf after so many nodes at most. -/
inductive EndsWithin
    (tree : Tree S) :
    Nat → Child → Prop where
  | leaf
      {levels id : Nat} :
      id < tree.records.leaves.size →
      EndsWithin tree levels (.leaf id)
  | node
      {levels id : Nat}
      {node : Node}
      {plane : Plane S} :
      tree.node id = .ok node →
      tree.plane node.plane = .ok plane →
      (∀ side, EndsWithin tree levels (node.child side)) →
      EndsWithin tree (levels + 1) (.node id)

/-- A leaf at which walks end is one of the tree's leaves. -/
theorem EndsWithin.leaf_lt
    {levels leaf : Nat}
    {child : Child}
    (ends : tree.EndsWithin levels child)
    (below : tree.Below child (.leaf leaf)) :
    leaf < tree.records.leaves.size := by
  induction ends with
  | leaf inRange =>
      cases below
      exact inRange
  | node foundNode _ _ inductionHypothesis =>
      cases below with
      | step hasChild lower =>
          obtain ⟨other, side, found, rfl⟩ := hasChild
          rw [lookup_eq_ok_iff.mp foundNode, Option.some.injEq] at found
          subst found
          exact inductionHypothesis side lower

/-- Walks that end within some levels end within more of them. -/
theorem EndsWithin.mono
    {levels more : Nat}
    {child : Child}
    (ends : tree.EndsWithin levels child)
    (enough : levels ≤ more) :
    tree.EndsWithin more child := by
  induction ends generalizing more with
  | leaf inRange =>
      exact .leaf inRange
  | node foundNode foundPlane _ inductionHypothesis =>
      obtain ⟨fewer, rfl⟩ := Nat.exists_eq_add_of_le' enough
      rw [← Nat.add_assoc]
      refine .node foundNode foundPlane fun side => ?_
      exact inductionHypothesis side (Nat.le_add_left _ _)

/-- Different ancestors that all lead to a child. -/
structure Ancestors
    (tree : Tree S)
    (ids : List Nat)
    (child : Child) : Prop where
  nodup :
    ids.Nodup
  inRange :
    ∀ id ∈ ids, id < tree.records.nodes.size
  above :
    ∀ id ∈ ids,
      ∃ lower, tree.HasChild id lower ∧ tree.Below lower child

/-- Different nodes are no more than there are. -/
theorem Ancestors.length_le
    {ids : List Nat}
    {child : Child}
    (ancestors : tree.Ancestors ids child) :
    ids.length ≤ tree.records.nodes.size := by
  have subset : ids ⊆ List.range tree.records.nodes.size := by
    intro id member
    exact List.mem_range.mpr (ancestors.inRange id member)
  have length := ancestors.nodup.length_le_of_subset subset
  rw [List.length_range] at length
  exact length

/-- A node and its ancestors are the ancestors of its children. -/
theorem Ancestors.descend
    {ids : List Nat}
    {id : Nat}
    {child : Child}
    (ancestors : tree.Ancestors ids (.node id))
    (acyclic : tree.Acyclic)
    (fromRoot : tree.Below tree.root (.node id))
    (inRange : id < tree.records.nodes.size)
    (hasChild : tree.HasChild id child) :
    tree.Ancestors (id :: ids) child where
  nodup := by
    refine List.nodup_cons.mpr ⟨?_, ancestors.nodup⟩
    intro repeated
    obtain ⟨lower, leads, below⟩ := ancestors.above id repeated
    exact acyclic id lower fromRoot leads below
  inRange := by
    intro other member
    rcases List.mem_cons.mp member with isFirst | inRest
    · subst isFirst
      exact inRange
    · exact ancestors.inRange other inRest
  above := by
    intro other member
    rcases List.mem_cons.mp member with isFirst | inRest
    · subst isFirst
      exact ⟨child, hasChild, .refl child⟩
    · obtain ⟨lower, leads, below⟩ := ancestors.above other inRest
      exact ⟨lower, leads, below.descend hasChild⟩

section Walks

variable {clusterCount : Nat}

/-- Below some ancestors there are as many levels as other nodes. -/
theorem Ancestors.endsWithin
    {ids : List Nat}
    {levels : Nat}
    {child : Child}
    (ancestors : tree.Ancestors ids child)
    (closed : tree.records.Closed clusterCount)
    (acyclic : tree.Acyclic)
    (fromRoot : tree.Below tree.root child)
    (inRecords : child.In tree.records)
    (others : tree.records.nodes.size ≤ ids.length + levels) :
    tree.EndsWithin levels child := by
  induction levels generalizing ids child with
  | zero =>
      cases child with
      | leaf id =>
          exact .leaf inRecords
      | node id =>
          have inRange : id < tree.records.nodes.size := inRecords
          have hasChild :
              tree.HasChild id tree.records.nodes[id].front :=
            ⟨_, .front, Array.getElem?_eq_getElem inRange, rfl⟩
          have length :=
            (ancestors.descend acyclic fromRoot inRange hasChild).length_le
          rw [List.length_cons] at length
          exact absurd (Nat.le_trans length others) (Nat.not_succ_le_self _)
  | succ levels inductionHypothesis =>
      cases child with
      | leaf id =>
          exact .leaf inRecords
      | node id =>
          have inRange : id < tree.records.nodes.size := inRecords
          have member := Array.getElem_mem inRange
          have plane := lookup_of_lt (closed.nodePlane _ member)
          refine .node (lookup_of_lt inRange) plane ?_
          intro side
          have hasChild :
              tree.HasChild id (tree.records.nodes[id].child side) :=
            ⟨_, side, Array.getElem?_eq_getElem inRange, rfl⟩
          refine
            inductionHypothesis
              (ancestors.descend acyclic fromRoot inRange hasChild)
              (fromRoot.descend hasChild)
              (closed.nodeChild _ member side) ?_
          rw [List.length_cons]
          omega

/-- From the root of an acyclic tree every walk ends within its depth bound. -/
theorem Acyclic.endsWithin
    (acyclic : tree.Acyclic)
    (closed : tree.records.Closed clusterCount)
    (rooted : tree.root.In tree.records) :
    tree.EndsWithin tree.depthBound tree.root := by
  have none : tree.Ancestors [] tree.root :=
    { nodup := List.nodup_nil
      inRange := by simp
      above := by simp }
  refine none.endsWithin closed acyclic (.refl tree.root) rooted ?_
  exact Nat.le_of_eq (Nat.zero_add _).symm

variable [Scalar S]

/-- The descent of a point goes past a plane. -/
inductive Meets
    (tree : Tree S)
    (point : Vec3 S) :
    Child → Plane S → Prop where
  | atNode
      {id : Nat}
      {node : Node}
      {plane : Plane S} :
      tree.node id = .ok node →
      tree.plane node.plane = .ok plane →
      Meets tree point (.node id) plane
  | onwards
      {id : Nat}
      {node : Node}
      {plane other : Plane S} :
      tree.node id = .ok node →
      tree.plane node.plane = .ok plane →
      Meets tree point (node.child (plane.pointSide point)) other →
      Meets tree point (.node id) other

/-- The descent of a point comes to a leaf below where it began. -/
theorem EndsWithin.exists_descend
    {levels : Nat}
    {child : Child}
    (ends : tree.EndsWithin levels child)
    (point : Vec3 S) :
    ∃ leaf,
      tree.descend point levels child = .ok leaf ∧
        tree.Below child (.leaf leaf) := by
  induction ends with
  | @leaf levels id inRange =>
      refine ⟨id, ?_, .refl _⟩
      cases levels <;> rfl
  | @node levels id node plane foundNode foundPlane _ inductionHypothesis =>
      obtain ⟨leaf, descends, below⟩ :=
        inductionHypothesis (plane.pointSide point)
      refine ⟨leaf, ?_, below.ofChild foundNode⟩
      rw [Tree.descend, foundNode, ok_bind, foundPlane, ok_bind]
      exact descends

end Walks

end Tree

end LevelCollision
