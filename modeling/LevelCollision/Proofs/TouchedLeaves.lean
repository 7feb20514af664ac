import LevelCollision.Proofs.OfferedHeads
import LevelCollision.Proofs.PackedLevel
import LevelCollision.Proofs.QueryRuns

namespace LevelCollision

/-!
# Touched leaves

`Touches` is the walk of a box without its limit: the leaves in the order in which they
are reached, and the first node whose plane splits the box. A list up to a limit is made
of the first of these leaves, and the node is the same for every limit. Until the box is
split there is only one way to go, so that all leaves lie below the node that splits it
first.
-/

/-- The side on which a box lies as a whole. -/
def Side.whole : Side → BoxSide
  | .front => .front
  | .back => .back

namespace LeafList

/-- The list with further leaves behind it, as many of them as its limit allows. -/
def extend
    (list : LeafList)
    (limit : Nat)
    (leaves : List Nat)
    (top : Option Nat) : LeafList where
  leaves := list.leaves ++ (leaves.take (limit - list.leaves.size)).toArray
  topNode := list.topNode.or top

theorem add_eq_extend
    (list : LeafList)
    (limit leaf : Nat) :
    list.add limit leaf = list.extend limit [leaf] none := by
  unfold add extend
  split
  · rename_i hasRoom
    obtain ⟨room, isRoom⟩ :=
      Nat.exists_eq_add_one_of_ne_zero (Nat.sub_ne_zero_of_lt hasRoom)
    rw [isRoom, List.take_succ_cons, List.take_nil, Option.or_none]
    rfl
  · rename_i isFull
    rw [Nat.sub_eq_zero_of_le (Nat.le_of_not_lt isFull), Option.or_none]
    simp

theorem splitAt_eq_extend
    (list : LeafList)
    (limit node : Nat) :
    list.splitAt node = list.extend limit [] (some node) := by
  simp [splitAt, extend]

/-- Leaves may be put behind a list in two parts. -/
theorem extend_extend
    (list : LeafList)
    (limit : Nat)
    (first second : List Nat)
    (top nextTop : Option Nat) :
    (list.extend limit first top).extend limit second nextTop =
      list.extend limit (first ++ second) (top.or nextTop) := by
  have room :
      limit - (list.leaves.size + min (limit - list.leaves.size) first.length) =
        limit - list.leaves.size - first.length := by
    omega
  simp [extend, List.take_append, room, Option.or_assoc]

/-- Leaves put behind an empty list are the first ones up to the limit. -/
theorem nothing_extend
    (limit : Nat)
    (leaves : List Nat)
    (top : Option Nat) :
    nothing.extend limit leaves top = ⟨(leaves.take limit).toArray, top⟩ := by
  simp [extend, nothing]

end LeafList

namespace Tree

variable {S : Type} {tree : Tree S} {levels : Nat} {child : Child}

/-- The tree below a child. -/
def below
    (tree : Tree S)
    (child : Child) : Tree S :=
  { tree with root := child }

/-- Walks end below whatever lies below a child at which they end. -/
theorem EndsWithin.ofBelow
    (ends : tree.EndsWithin levels child)
    {lower : Child}
    (below : tree.Below child lower) :
    tree.EndsWithin levels lower := by
  induction below generalizing levels with
  | refl =>
      exact ends
  | step hasChild _ inductionHypothesis =>
      obtain ⟨node, side, found, rfl⟩ := hasChild
      cases ends with
      | node foundNode _ children =>
          rw [lookup_eq_ok_iff.mp foundNode, Option.some.injEq] at found
          subst found
          exact (inductionHypothesis (children side)).mono (Nat.le_succ _)

/-- A leaf has a cluster, and the bit of the cluster is set in a row. -/
def InRow
    (tree : Tree S)
    (row : BitRow)
    (id : Nat) : Prop :=
  ∃ leaf cluster,
    tree.records.leaves[id]? = some leaf ∧
      leaf.cluster = some cluster ∧
      row.get cluster = true

theorem InRow.leafVisible
    {row : BitRow}
    {id : Nat}
    (inRow : tree.InRow row id) :
    tree.leafVisible row id = .ok true := by
  obtain ⟨leaf, cluster, listed, isCluster, isSet⟩ := inRow
  have found : tree.leaf id = .ok leaf :=
    lookup_eq_ok_iff.mpr listed
  rw [Tree.leafVisible, found, ok_bind, isCluster, Option.any_some, isSet]
  rfl

/-- A child is in a row if any leaf below it is. -/
theorem EndsWithin.childVisible_of_below
    (ends : tree.EndsWithin levels child)
    {row : BitRow}
    {leaf : Nat}
    (below : tree.Below child (.leaf leaf))
    (inRow : tree.InRow row leaf) :
    tree.childVisible row levels child = .ok true := by
  induction ends with
  | leaf =>
      cases below
      rw [childVisible]
      exact inRow.leafVisible
  | @node levels id node plane foundNode _ children inductionHypothesis =>
      obtain ⟨inFront, seenFront⟩ :
          ∃ inFront, tree.childVisible row levels node.front = .ok inFront :=
        (children .front).exists_childVisible row
      rw [childVisible, foundNode, ok_bind, seenFront, ok_bind]
      cases inFront with
      | true =>
          rfl
      | false =>
          cases below with
          | step hasChild lower =>
              obtain ⟨other, side, found, rfl⟩ := hasChild
              rw [lookup_eq_ok_iff.mp foundNode, Option.some.injEq] at found
              subst found
              have seen := inductionHypothesis side lower
              cases side with
              | front =>
                  -- The front child was found not to be in the row.
                  have seen :
                      tree.childVisible row levels node.front = .ok true :=
                    seen
                  rw [seenFront] at seen
                  cases seen
              | back =>
                  exact seen

/-- Whether a child is in a row does not depend on the root. -/
theorem childVisible_below
    (tree : Tree S)
    (root : Child)
    (row : BitRow)
    (levels : Nat)
    (child : Child) :
    (tree.below root).childVisible row levels child =
      tree.childVisible row levels child := by
  induction levels generalizing child with
  | zero =>
      cases child <;> rfl
  | succ levels inductionHypothesis =>
      cases child with
      | leaf id =>
          rfl
      | node id =>
          simp only [childVisible, inductionHypothesis]
          rfl

/-- The tree below a child is in a row if any leaf below the child is. -/
theorem EndsWithin.visible_of_below
    (ends : tree.EndsWithin tree.depthBound child)
    {row : BitRow}
    {leaf : Nat}
    (below : tree.Below child (.leaf leaf))
    (inRow : tree.InRow row leaf) :
    (tree.below child).visible row = .ok true := by
  rw [visible, childVisible_below]
  exact ends.childVisible_of_below below inRow

variable [Scalar S] {box : Box S}

/--
The leaves that a box touches below a child, in the order of the walk, and the first
node whose plane splits the box.
-/
inductive Touches
    (tree : Tree S)
    (box : Box S) :
    Child → List Nat → Option Nat → Prop where
  | leaf
      (id : Nat) :
      Touches tree box (.leaf id) [id] none
  | within
      {id : Nat}
      {node : Node}
      {plane : Plane S}
      {side : Side}
      {leaves : List Nat}
      {top : Option Nat} :
      tree.node id = .ok node →
      tree.plane node.plane = .ok plane →
      plane.boxSide box = side.whole →
      Touches tree box (node.child side) leaves top →
      Touches tree box (.node id) leaves top
  | across
      {id : Nat}
      {node : Node}
      {plane : Plane S}
      {inFront behind : List Nat}
      {topInFront topBehind : Option Nat} :
      tree.node id = .ok node →
      tree.plane node.plane = .ok plane →
      plane.boxSide box = .both →
      Touches tree box node.front inFront topInFront →
      Touches tree box node.back behind topBehind →
      Touches tree box (.node id) (inFront ++ behind) (some id)

/-- The leaves that a box touches below a child do not depend on the root. -/
theorem gather_below
    (tree : Tree S)
    (root : Child)
    (box : Box S)
    (limit levels : Nat)
    (child : Child)
    (list : LeafList) :
    (tree.below root).gather box limit levels child list =
      tree.gather box limit levels child list := by
  induction levels generalizing child list with
  | zero =>
      cases child <;> rfl
  | succ levels inductionHypothesis =>
      cases child with
      | leaf id =>
          rfl
      | node id =>
          simp only [gather, inductionHypothesis]
          rfl

/-- A box touches some leaves where walks end. -/
theorem EndsWithin.exists_touches
    (ends : tree.EndsWithin levels child)
    (box : Box S) :
    ∃ leaves top, tree.Touches box child leaves top := by
  induction ends with
  | @leaf levels id =>
      exact ⟨[id], none, .leaf id⟩
  | @node levels id node plane foundNode foundPlane _ inductionHypothesis =>
      obtain ⟨inFront, topInFront, touchesInFront⟩ :=
        inductionHypothesis .front
      obtain ⟨behind, topBehind, touchesBehind⟩ :=
        inductionHypothesis .back
      cases lies : plane.boxSide box with
      | front =>
          have lies : plane.boxSide box = Side.front.whole := lies
          exact ⟨_, _, .within foundNode foundPlane lies touchesInFront⟩
      | back =>
          have lies : plane.boxSide box = Side.back.whole := lies
          exact ⟨_, _, .within foundNode foundPlane lies touchesBehind⟩
      | both =>
          exact
            ⟨_, _,
              .across foundNode foundPlane lies touchesInFront touchesBehind⟩

namespace Touches

variable {leaves : List Nat} {top : Option Nat}

/-- The walk puts the touched leaves behind those that were listed before. -/
theorem gather
    (touches : tree.Touches box child leaves top)
    (ends : tree.EndsWithin levels child)
    (limit : Nat)
    (list : LeafList) :
    tree.gather box limit levels child list =
      .ok (list.extend limit leaves top) := by
  induction touches generalizing levels list with
  | leaf id =>
      rw [Tree.gather, LeafList.add_eq_extend]
  | @within id node plane side _ _ foundNode foundPlane lies _
      inductionHypothesis =>
      cases ends with
      | node found _ children =>
          rw [foundNode, Except.ok.injEq] at found
          subst found
          rw [Tree.gather, foundNode, ok_bind, foundPlane, ok_bind, lies]
          cases side with
          | front =>
              exact inductionHypothesis (children .front) list
          | back =>
              exact inductionHypothesis (children .back) list
  | @across id node plane inFront behind _ _ foundNode foundPlane lies _ _
      gathersInFront gathersBehind =>
      cases ends with
      | node found _ children =>
          rw [foundNode, Except.ok.injEq] at found
          subst found
          rw [Tree.gather, foundNode, ok_bind, foundPlane, ok_bind, lies]
          simp only [gathersInFront (children .front), ok_bind,
            gathersBehind (children .back),
            LeafList.splitAt_eq_extend list limit, LeafList.extend_extend,
            List.nil_append, Option.some_or]

/-- The leaves of a box are the touched ones up to the limit. -/
theorem boxLeaves
    (touches : tree.Touches box child leaves top)
    (ends : tree.EndsWithin tree.depthBound child)
    (limit : Nat) :
    (tree.below child).boxLeaves box limit =
      .ok ⟨(leaves.take limit).toArray, top⟩ := by
  rw [Tree.boxLeaves, gather_below]
  have gathers := touches.gather ends limit .nothing
  rw [LeafList.nothing_extend] at gathers
  exact gathers

/-- Touched leaves lie below the child where the walk began. -/
theorem below_of_mem
    (touches : tree.Touches box child leaves top)
    {leaf : Nat}
    (touched : leaf ∈ leaves) :
    tree.Below child (.leaf leaf) := by
  induction touches with
  | leaf id =>
      rw [List.mem_singleton.mp touched]
      exact .refl _
  | within foundNode _ _ _ inductionHypothesis =>
      exact (inductionHypothesis touched).ofChild foundNode
  | @across _ node _ _ _ _ _ foundNode _ _ _ _ belowFront belowBack =>
      rcases List.mem_append.mp touched with inFront | behind
      · have lower : tree.Below (node.child .front) _ := belowFront inFront
        exact lower.ofChild foundNode
      · have lower : tree.Below (node.child .back) _ := belowBack behind
        exact lower.ofChild foundNode

/-- The node that splits the box first lies on the walk, and nothing was listed before it. -/
theorem fromTop
    {splitting : Nat}
    (touches : tree.Touches box child leaves (some splitting)) :
    tree.Below child (.node splitting) ∧
      tree.Touches box (.node splitting) leaves (some splitting) := by
  generalize isTop : some splitting = top at touches
  induction touches with
  | leaf =>
      cases isTop
  | within foundNode _ _ _ inductionHypothesis =>
      obtain ⟨below, touchesThere⟩ := inductionHypothesis isTop
      exact ⟨below.ofChild foundNode, touchesThere⟩
  | across foundNode foundPlane lies inFront behind =>
      cases isTop
      exact ⟨.refl _, .across foundNode foundPlane lies inFront behind⟩

/-- A box that no plane splits touches a single leaf. -/
theorem eq_singleton
    (touches : tree.Touches box child leaves none) :
    ∃ leaf, leaves = [leaf] := by
  generalize isTop : none = top at touches
  induction touches with
  | leaf id =>
      exact ⟨id, rfl⟩
  | within _ _ _ _ inductionHypothesis =>
      exact inductionHypothesis isTop
  | across =>
      cases isTop

end Touches

end Tree

namespace Level

/-- Heads of a level with a map differ in their roots only. -/
theorem tree_eq_of_mapped
    {S : Type}
    [Scalar S]
    {level : Level S}
    (mapped : level.isEmpty = false)
    (root other : Child) :
    level.tree (.tree other) = (level.tree (.tree root)).below other := by
  simp only [tree, mapped, Bool.false_eq_true, ↓reduceIte, Tree.below]

/-- Below the root of a level without a map there is no node. -/
theorem mapped_of_root_eq_node
    {S : Type}
    [Scalar S]
    {level : Level S}
    {root : Child}
    {id : Nat}
    (below :
      (level.tree (.tree root)).Below (level.tree (.tree root)).root
        (.node id)) :
    level.isEmpty = false := by
  by_contra unmapped
  rw [Bool.not_eq_false] at unmapped
  have isLeaf : (level.tree (.tree root)).root = .leaf 0 := by
    simp only [tree, unmapped, ↓reduceIte]
  rw [isLeaf] at below
  cases below

/-- Without a map there is only one leaf, and the head of every child leads to it. -/
theorem tree_leaf_of_below
    {S : Type}
    [Scalar S]
    {level : Level S}
    {root : Child}
    {id : Nat}
    (below :
      (level.tree (.tree root)).Below (level.tree (.tree root)).root
        (.leaf id)) :
    level.tree (.tree (.leaf id)) =
      (level.tree (.tree root)).below (.leaf id) := by
  cases mapped : level.isEmpty with
  | false =>
      exact tree_eq_of_mapped mapped root (.leaf id)
  | true =>
      have isLeaf : (level.tree (.tree root)).root = .leaf 0 := by
        simp only [tree, mapped, ↓reduceIte]
      rw [isLeaf] at below
      cases below
      simp only [tree, mapped, ↓reduceIte, Tree.below]

/-- A level without a map and a level that was read are sound. -/
theorem sound_of_origin
    {level : Level Float32}
    (origin : level = .empty ∨ ∃ bytes, (read bytes).outcome = .ok level) :
    level.Sound := by
  rcases origin with rfl | ⟨bytes, accepted⟩
  · exact sound_empty
  · exact sound_of_read accepted

/--
The leaves that a box touches from a head are listed in one order, up to whatever limit.
If there is a node that splits the box first, they are the ones touched from that node,
and if there is none, there is only one. So a row in which the cluster of any of them is
set has the node, or the single leaf, in it.
-/
theorem boxLeaves_fromTopNode
    {level : Level Float32}
    {root : Child}
    (origin : level = .empty ∨ ∃ bytes, (read bytes).outcome = .ok level)
    (rooted :
      (level.tree (.tree root)).root.In (level.tree (.tree root)).records)
    (acyclic : (level.tree (.tree root)).Acyclic)
    (box : Box Float32) :
    ∃ leaves top,
      (∀ limit,
        (level.tree (.tree root)).boxLeaves box limit =
          .ok ⟨(leaves.take limit).toArray, top⟩) ∧
        (∀ node,
          top = some node →
            (∀ limit,
              (level.tree (.tree (.node node))).boxLeaves box limit =
                .ok ⟨(leaves.take limit).toArray, top⟩) ∧
              ∀ row,
                (∃ leaf ∈ leaves,
                  (level.tree (.tree root)).InRow row leaf) →
                  (level.tree (.tree (.node node))).visible row =
                    .ok true) ∧
        (top = none →
          ∃ leaf,
            leaves = [leaf] ∧
              ∀ row,
                (level.tree (.tree root)).InRow row leaf →
                  (level.tree (.tree (.leaf leaf))).visible row =
                    .ok true) := by
  have ends :=
    acyclic.endsWithin ((sound_of_origin origin).closed_tree (.tree root))
      rooted
  obtain ⟨leaves, top, touches⟩ := ends.exists_touches box
  refine ⟨leaves, top, touches.boxLeaves ends, ?_, ?_⟩
  · rintro node rfl
    obtain ⟨below, touchesThere⟩ := touches.fromTop
    have endsThere := ends.ofBelow below
    rw [tree_eq_of_mapped (mapped_of_root_eq_node below) root (.node node)]
    refine ⟨touchesThere.boxLeaves endsThere, ?_⟩
    rintro row ⟨leaf, touched, inRow⟩
    exact
      endsThere.visible_of_below (touchesThere.below_of_mem touched) inRow
  · rintro rfl
    obtain ⟨leaf, rfl⟩ := touches.eq_singleton
    refine ⟨leaf, rfl, ?_⟩
    intro row inRow
    have below := touches.below_of_mem (List.mem_singleton_self leaf)
    rw [tree_leaf_of_below below]
    exact (ends.ofBelow below).visible_of_below (.refl _) inRow

/--
In the level of two rooms the cube around the corner of the wall touches both leaves. One
of them lies in the first cluster, so that the row of this cluster alone has the node
between them in it. The row without it does not.
-/
theorem visible_doorway_of_touched :
    ∃ level : Level Float32,
      (read Stored.Level.doorway.packed).outcome = .ok level ∧
        (level.tree (.tree (.node 0))).boxLeaves
            ⟨Vec3.splat (-1), Vec3.splat 1⟩ 2 =
          .ok ⟨#[1, 0], some 0⟩ ∧
        (level.tree (.tree (.node 0))).InRow ⟨#[1]⟩ 1 ∧
        (level.tree (.tree (.node 0))).visible ⟨#[1]⟩ = .ok true ∧
        (level.tree (.tree (.node 0))).visible ⟨#[0]⟩ = .ok false := by
  have run :
      ((read Stored.Level.doorway.packed).outcome.toOption.bind
        fun level =>
          ((level.tree (.tree (.node 0))).boxLeaves
              ⟨Vec3.splat (-1), Vec3.splat 1⟩ 2).toOption.bind
            fun list =>
              ((level.tree (.tree (.node 0))).visible ⟨#[0]⟩).toOption.bind
                fun seen =>
                  (level.tree (.tree (.node 0))).records.leaves[1]?.map
                    fun leaf =>
                      ((level.isEmpty, level.full.nodes.size,
                          (level.tree (.tree (.node 0))).goesForward),
                        list, seen, leaf.cluster)) =
        some ((false, 7, true), ⟨#[1, 0], some 0⟩, false, some 0) := by
    decide +kernel
  simp only [Option.bind_eq_some_iff, Option.map_eq_some_iff,
    toOption_eq_some_iff, Prod.mk.injEq] at run
  obtain ⟨level, accepted, list, lists, seen, sees, leaf, listed,
    ⟨mapped, nodeCount, forward⟩, rfl, rfl, isCluster⟩ := run
  have hasNode : 0 < level.full.nodes.size := by
    rw [nodeCount]
    decide
  obtain ⟨leaves, top, listsAll, split, _⟩ :=
    boxLeaves_fromTopNode (.inr ⟨_, accepted⟩)
      (rooted_of_mapped mapped hasNode)
      (Tree.acyclic_of_goesForward forward) ⟨Vec3.splat (-1), Vec3.splat 1⟩
  have same := (listsAll 2).symm.trans lists
  rw [Except.ok.injEq, LeafList.mk.injEq] at same
  obtain ⟨firstTwo, isTop⟩ := same
  have touched : 1 ∈ leaves := by
    have inFirstTwo : 1 ∈ leaves.take 2 := by
      rw [← List.mem_toArray, firstTwo]
      simp
    exact List.mem_of_mem_take inFirstTwo
  have inRow : (level.tree (.tree (.node 0))).InRow ⟨#[1]⟩ 1 :=
    ⟨leaf, 0, listed, isCluster, by decide⟩
  exact
    ⟨level, accepted, lists, inRow,
      (split 0 isTop).2 ⟨#[1]⟩ ⟨1, touched, inRow⟩, sees⟩

end Level

end LevelCollision
