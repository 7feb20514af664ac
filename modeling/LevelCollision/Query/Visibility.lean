import LevelCollision.Query.BoxLeaves

namespace LevelCollision

/-!
# Visibility queries

A row has one bit for each cluster. A leaf outside every cluster sees nothing and
is seen by nothing. Without visibility data every cluster sees every cluster, and
with it a cluster sees itself whatever its row says.
-/

namespace Level

variable {S : Type} [Scalar S]

/-- The clusters seen or heard from a cluster. -/
def clusterRow
    (level : Level S)
    (sense : Sense) :
    Option Nat → Except Fault (Logged BitRow)
  | none =>
      .ok { value := .clear level.rowLength }
  | some cluster =>
      if cluster < level.clusterCount then
        match level.visibility with
        | none =>
            .ok { value := .full level.rowLength }
        | some table =>
            match table.stored? sense cluster with
            | none =>
                .error .outOfBounds
            | some stored => do
                let expanded := RunLength.expand stored level.rowLength
                let row ← expanded.value.mark cluster
                return { expanded with value := row }
      else
        .error (.badCluster cluster level.clusterCount)

/-- The cluster of one of the level's leaves. -/
def leafCluster
    (level : Level S)
    (id : Nat) : Except Fault (Option Nat) := do
  let leaf ← level.leaf id
  return leaf.cluster

/--
Join the visible clusters of leaves to a row. Each cluster is looked up once; so is
the absence of one.
-/
def joinRows
    (level : Level S) :
    List Nat → List (Option Nat) → Logged BitRow → Except Fault (Logged BitRow)
  | [], _, joined =>
      .ok joined
  | id :: rest, seen, joined => do
      let cluster ← level.leafCluster id
      if seen.contains cluster then
        level.joinRows rest seen joined
      else
        let row ← level.clusterRow .sight cluster
        level.joinRows rest (cluster :: seen)
          { value := joined.value.union row.value
            notices := joined.notices ++ row.notices }

/--
The clusters seen from any of the first leaves, up to a limit, that the cube around
a point touches.
-/
def fatRow
    (level : Level S)
    (limit : Nat)
    (origin : Vec3 S)
    (radius : S) : Except Fault (Logged BitRow) := do
  let head ← level.worldHead
  let cube : Box S :=
    { mins := origin - Vec3.splat radius
      maxs := origin + Vec3.splat radius }
  let list ← (level.tree head).boxLeaves cube limit
  level.joinRows list.leaves.toList []
    { value := .clear level.rowLength }

/--
Add the clusters of leaves that are not among those already found; `none` if there
are more clusters than a limit.
-/
def distinctClusters
    (level : Level S)
    (limit : Nat) :
    List Nat → Array Nat → Except Fault (Option (Array Nat))
  | [], found =>
      .ok (some found)
  | id :: rest, found => do
      match ← level.leafCluster id with
      | none =>
          level.distinctClusters limit rest found
      | some cluster =>
          if found.contains cluster then
            level.distinctClusters limit rest found
          else if found.size = limit then
            return none
          else
            level.distinctClusters limit rest (found.push cluster)

/--
The clusters that a box touches in the world, in the order in which it touches
them; `none` if there are more than a limit, or if the box touches so many leaves
that a list of them would be full.
-/
def boxClusters
    (level : Level S)
    (leafLimit : Nat)
    (box : Box S)
    (limit : Nat) : Except Fault (Option (Array Nat)) := do
  let head ← level.worldHead
  let list ← (level.tree head).boxLeaves box leafLimit
  if leafLimit ≤ list.leaves.size then
    return none
  else
    level.distinctClusters limit list.leaves.toList #[]

end Level

namespace Tree

variable {S : Type}

/-- Whether the cluster of a leaf is in a row. -/
def leafVisible
    (tree : Tree S)
    (row : BitRow)
    (id : Nat) : Except Fault Bool := do
  let leaf ← tree.leaf id
  return leaf.cluster.any row.get

/-- Whether a leaf below a child is in a row, within a number of levels. -/
def childVisible
    (tree : Tree S)
    (row : BitRow) :
    Nat → Child → Except Fault Bool
  | _, .leaf id =>
      tree.leafVisible row id
  | 0, .node _ =>
      .error .endless
  | levels + 1, .node id => do
      let node ← tree.node id
      if ← tree.childVisible row levels node.front then
        return true
      else
        tree.childVisible row levels node.back

/-- Whether any leaf of the tree is in a cluster of a row. -/
def visible
    (tree : Tree S)
    (row : BitRow) : Except Fault Bool :=
  tree.childVisible row tree.depthBound tree.root

end Tree

end LevelCollision
