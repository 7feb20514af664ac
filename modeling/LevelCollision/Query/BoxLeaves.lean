import LevelCollision.Level.Basic

namespace LevelCollision

/-!
# The leaves of a box

The walk follows a box to every leaf it touches: to one child where the box lies
on one side of the plane, and to the front child and then the back one where it
lies on both. A leaf that is reached twice is listed twice.

Only the first leaves up to a limit are listed, but the walk goes on after that, so
that the node at which the box was first split does not depend on the limit.
-/

/-- Leaves in the order in which a walk reached them. -/
structure LeafList where
  leaves : Array Nat
  /-- The first node whose plane split the box. -/
  topNode : Option Nat
  deriving DecidableEq

namespace LeafList

/-- The list before anything was reached. -/
def nothing : LeafList where
  leaves := #[]
  topNode := none

/-- The list with one more leaf, unless it is at its limit. -/
def add
    (list : LeafList)
    (limit leaf : Nat) : LeafList :=
  if list.leaves.size < limit then
    { list with leaves := list.leaves.push leaf }
  else
    list

/-- The list after the box was split at a node. -/
def splitAt
    (list : LeafList)
    (node : Nat) : LeafList :=
  { list with topNode := list.topNode.or (some node) }

end LeafList

namespace Tree

variable {S : Type} [Scalar S]

/-- Add the leaves that a box touches below a child, within a number of levels. -/
def gather
    (tree : Tree S)
    (box : Box S)
    (limit : Nat) :
    Nat → Child → LeafList → Except Fault LeafList
  | _, .leaf id, list =>
      .ok (list.add limit id)
  | 0, .node _, _ =>
      .error .endless
  | levels + 1, .node id, list => do
      let node ← tree.node id
      let plane ← tree.plane node.plane
      match plane.boxSide box with
      | .front =>
          tree.gather box limit levels node.front list
      | .back =>
          tree.gather box limit levels node.back list
      | .both =>
          let list ←
            tree.gather box limit levels node.front (list.splitAt id)
          tree.gather box limit levels node.back list

/-- The first leaves that a box touches, up to a limit. -/
def boxLeaves
    (tree : Tree S)
    (box : Box S)
    (limit : Nat) : Except Fault LeafList :=
  tree.gather box limit tree.depthBound tree.root .nothing

end Tree

end LevelCollision
