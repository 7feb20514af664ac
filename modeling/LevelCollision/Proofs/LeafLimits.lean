import LevelCollision.Proofs.FloodFaults
import LevelCollision.Proofs.TouchedLeaves

namespace LevelCollision

/-!
# Limits of leaf lists

A box touches the leaves below a child in one order only, with one node that splits it
first. A list with a limit is cut off from these leaves, so that a higher limit keeps what a
lower one lists and puts further leaves behind it.
-/

namespace Side

/-- A box that lies across a plane does not lie on one side of it. -/
theorem whole_ne_both
    (side : Side) :
    side.whole ≠ .both := by
  cases side with
  | front =>
      exact BoxSide.noConfusion
  | back =>
      exact BoxSide.noConfusion

/-- A box lies on one side of a plane at most. -/
theorem whole_injective
    {side other : Side}
    (same : side.whole = other.whole) :
    side = other := by
  cases side with
  | front =>
      cases other with
      | front =>
          rfl
      | back =>
          cases same
  | back =>
      cases other with
      | front =>
          cases same
      | back =>
          rfl

end Side

namespace Tree

variable {S : Type} [Scalar S] {tree : Tree S} {box : Box S}

/-- The touched leaves are determined, and so is the node that splits the box first. -/
theorem Touches.unique
    {child : Child}
    {leaves others : List Nat}
    {top otherTop : Option Nat}
    (touches : tree.Touches box child leaves top)
    (alsoTouches : tree.Touches box child others otherTop) :
    others = leaves ∧ otherTop = top := by
  induction touches generalizing others otherTop with
  | leaf id =>
      cases alsoTouches
      exact ⟨rfl, rfl⟩
  | @within id node plane side _ _ foundNode foundPlane lies _
      inductionHypothesis =>
      cases alsoTouches with
      | within otherNode otherPlane otherLies below =>
          cases foundNode.symm.trans otherNode
          cases foundPlane.symm.trans otherPlane
          cases Side.whole_injective (lies.symm.trans otherLies)
          exact inductionHypothesis below
      | across otherNode otherPlane liesAcross _ _ =>
          cases foundNode.symm.trans otherNode
          cases foundPlane.symm.trans otherPlane
          exact absurd (lies.symm.trans liesAcross) side.whole_ne_both
  | across foundNode foundPlane liesAcross _ _ uniqueInFront uniqueBehind =>
      cases alsoTouches with
      | @within _ _ _ side _ _ otherNode otherPlane otherLies _ =>
          cases foundNode.symm.trans otherNode
          cases foundPlane.symm.trans otherPlane
          exact absurd (otherLies.symm.trans liesAcross) side.whole_ne_both
      | across otherNode otherPlane _ inFront behind =>
          cases foundNode.symm.trans otherNode
          cases foundPlane.symm.trans otherPlane
          obtain ⟨rfl, _⟩ := uniqueInFront inFront
          obtain ⟨rfl, _⟩ := uniqueBehind behind
          exact ⟨rfl, rfl⟩

end Tree

namespace World

/--
A box touches the leaves below a head in one order only, whatever its corners are. Up to a
limit the first of these leaves are listed, with the node that splits the box first, which is
the same for all limits. So a higher limit only puts leaves behind those of a lower one.
-/
theorem boxLeaves_eq_take
    {world : World Float32}
    {head : Head Float32}
    (origin :
      world.level = .empty ∨
        ∃ bytes, (Level.read bytes).outcome = .ok world.level)
    (rooted :
      (world.level.tree head).root.In (world.level.tree head).records)
    (acyclic : (world.level.tree head).Acyclic)
    (box : Box Float32) :
    ∃ leaves top,
      (∀ others otherTop,
        (world.level.tree head).Touches box (world.level.tree head).root
            others otherTop ↔
          others = leaves ∧ otherTop = top) ∧
        (∀ limit,
          world.boxLeaves head box limit =
            .ok ⟨(leaves.take limit).toArray, top⟩) ∧
        ∀ limit more,
          limit ≤ more →
            ∃ fewer list appended,
              world.boxLeaves head box limit = .ok fewer ∧
                world.boxLeaves head box more = .ok list ∧
                  list.leaves = fewer.leaves ++ appended ∧
                    list.topNode = fewer.topNode := by
  have closed := (Level.sound_of_origin origin).closed_tree head
  have ends := acyclic.endsWithin closed rooted
  obtain ⟨leaves, top, touches⟩ := ends.exists_touches box
  have lists
      (limit : Nat) :
      world.boxLeaves head box limit =
        .ok ⟨(leaves.take limit).toArray, top⟩ :=
    touches.boxLeaves ends limit
  refine ⟨leaves, top, fun others otherTop => ⟨touches.unique, ?_⟩, lists, ?_⟩
  · rintro ⟨rfl, rfl⟩
    exact touches
  · intro limit more atMost
    obtain ⟨room, rfl⟩ := Nat.exists_eq_add_of_le atMost
    refine
      ⟨_, _, ((leaves.drop limit).take room).toArray, lists limit,
        lists (limit + room), ?_, rfl⟩
    simp only [List.take_add, List.append_toArray]

/-- A box whose corners are no points. -/
def nowhere : Box Float32 where
  mins := Vec3.splat (Float32.ofBits 0x7fc00000)
  maxs := Vec3.splat (Float32.ofBits 0x7fc00000)

/--
In the level of two rooms such a box lies across the wall. With room for one leaf the one in
front is listed, and with room for two that leaf and the one behind.
-/
theorem boxLeaves_doorway_nowhere :
    ∃ world : World Float32,
      (Level.read Stored.Level.doorway.packed).outcome = .ok world.level ∧
        world.boxLeaves (.tree (.node 0)) nowhere 1 = .ok ⟨#[1], some 0⟩ ∧
        world.boxLeaves (.tree (.node 0)) nowhere 2 =
          .ok ⟨#[1, 0], some 0⟩ ∧
        (world.level.tree (.tree (.node 0))).Touches nowhere (.node 0) [1, 0]
          (some 0) := by
  have run :
      ((Level.read Stored.Level.doorway.packed).outcome.toOption.bind
        fun level => (World.ofLevel level).toOption.bind
          fun world =>
            (world.boxLeaves (.tree (.node 0)) nowhere 3).toOption.map
              fun list =>
                (world.level.isEmpty, world.level.full.nodes.size,
                  (world.level.tree (.tree (.node 0))).goesForward, list)) =
        some (false, 7, true, ⟨#[1, 0], some 0⟩) := by
    decide +kernel
  simp only [Option.bind_eq_some_iff, Option.map_eq_some_iff,
    toOption_eq_some_iff, Prod.mk.injEq] at run
  obtain ⟨level, accepted, world, loaded, list, listed, mapped, nodeCount,
    forward, rfl⟩ := run
  cases level_of_ofLevel loaded
  have hasNode : 0 < world.level.full.nodes.size := by
    rw [nodeCount]
    decide
  obtain ⟨leaves, top, touched, lists, _⟩ :=
    boxLeaves_eq_take (.inr ⟨_, accepted⟩)
      (Level.rooted_of_mapped mapped hasNode)
      (Tree.acyclic_of_goesForward forward) nowhere
  have same := (lists 3).symm.trans listed
  rw [Except.ok.injEq, LeafList.mk.injEq] at same
  obtain ⟨sameLeaves, rfl⟩ := same
  have firstThree : leaves.take 3 = [1, 0] :=
    List.toArray_inj sameLeaves
  -- There was room for a third leaf.
  have isAll : leaves = [1, 0] := by
    have length := congrArg List.length firstThree
    rw [List.length_take] at length
    rwa [List.take_of_length_le (by simp at length; omega)] at firstThree
  subst isAll
  have isRoot : (world.level.tree (.tree (.node 0))).root = .node 0 := by
    simp only [Level.tree, mapped, Bool.false_eq_true, ↓reduceIte]
  have touches := (touched [1, 0] (some 0)).mpr ⟨rfl, rfl⟩
  rw [isRoot] at touches
  exact ⟨world, accepted, lists 1, lists 2, touches⟩

end World

end LevelCollision
