import LevelCollision.Level.Basic

namespace LevelCollision

/-!
# The leaf of a point

From the root the walk goes to the child on the point's side of each plane until
it arrives at a leaf. Points on a plane go to its front.
-/

namespace Tree

variable {S : Type} [Scalar S]

/-- The leaf of a point below a child, within a number of steps. -/
def descend
    (tree : Tree S)
    (point : Vec3 S) :
    Nat → Child → Except Fault Nat
  | _, .leaf id =>
      .ok id
  | 0, .node _ =>
      .error .endless
  | steps + 1, .node id => do
      let node ← tree.node id
      let plane ← tree.plane node.plane
      tree.descend point steps (node.child (plane.pointSide point))

/-- The leaf of a point. -/
def pointLeaf
    (tree : Tree S)
    (point : Vec3 S) : Except Fault Nat :=
  tree.descend point tree.depthBound tree.root

/-- The contents of the leaf of a point. -/
def pointContents
    (tree : Tree S)
    (point : Vec3 S) : Except Fault Contents := do
  let id ← tree.pointLeaf point
  let leaf ← tree.leaf id
  return leaf.contents

end Tree

end LevelCollision
