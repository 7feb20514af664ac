import LevelCollision.Level.Records
import LevelCollision.Level.RecordKind

namespace LevelCollision

/-!
# Box hulls

An entity that has only a bounding box is traced through a small tree of its own:
a chain of six nodes, one for each face of the box, that leads to a single leaf
with a single brush of six sides. The chain follows the level's records, and all
of its outside children are one empty leaf of the level.

Each face has two planes, one facing along the axis and one against it. The node
of a face uses the first. Its brush side uses the one that faces out of the box.
Faces come in pairs per axis, the upper bound before the lower one.
-/

namespace BoxHull

/-- Faces of a box, and so nodes and brush sides of its hull. -/
def faceCount : Nat := 6

/-- Planes of a hull. -/
def planeCount : Nat := 12

section Planes

variable {S : Type} [Scalar S]

/-- The two planes at a bound of an axis: along the axis, then against it. -/
def boundPlanes
    (axis : Axis)
    (bound : S) : Array (Plane S) :=
  #[Plane.axial axis bound, (Plane.axial axis bound).opposite]

/-- The twelve planes of the hull of a box. -/
def planes
    (bounds : Box S) : Array (Plane S) :=
  #[Axis.x, Axis.y, Axis.z].flatMap fun axis =>
    boundPlanes axis (bounds.maxs.get axis) ++
      boundPlanes axis (bounds.mins.get axis)

/-- The box that a hull has while no query supplies its bounds. -/
def unplaced : Box S where
  mins := Vec3.zero
  maxs := Vec3.zero

end Planes

/-- The side of a face's plane that is outside the box: in front of an upper bound. -/
def outside
    (face : Nat) : Side :=
  if face % 2 = 0 then .front else .back

section Records

variable {S : Type}

/-- The tree of a hull begins after the level's own nodes. -/
def head
    (own : Records S) : Child :=
  .node own.nodes.size

/-- The leaf of a hull follows the level's own leaves. -/
def leafId
    (own : Records S) : Nat :=
  own.leaves.size

/-- What lies inside a face: the next face, and the hull's leaf after the last. -/
def inside
    (own : Records S)
    (face : Nat) : Child :=
  if face + 1 = faceCount then
    .leaf (leafId own)
  else
    .node (own.nodes.size + (face + 1))

/-- The node of a face. -/
def node
    (own : Records S)
    (emptyLeaf face : Nat) : Node :=
  match outside face with
  | .front =>
      { plane := own.planes.size + 2 * face
        front := .leaf emptyLeaf
        back := inside own face }
  | .back =>
      { plane := own.planes.size + 2 * face
        front := inside own face
        back := .leaf emptyLeaf }

/-- The brush side of a face, on the plane that faces out of the box. -/
def brushSide
    (own : Records S)
    (face : Nat) : BrushSide where
  plane := own.planes.size + 2 * face + face % 2
  surface := none

/-- The brush of a hull. -/
def brush
    (own : Records S) : Brush where
  contents := .monster
  sides := ⟨own.brushSides.size, faceCount⟩

/-- The leaf of a hull. -/
def leaf
    (own : Records S) : Leaf where
  contents := .monster
  cluster := none
  area := 0
  brushes := ⟨own.leafBrushes.size, 1⟩

/-- Whether the level leaves room for the records of a hull. -/
def fits
    (own : Records S) : Bool :=
  own.nodes.size + faceCount ≤ RecordKind.node.limit &&
    own.planes.size + planeCount ≤ RecordKind.plane.limit &&
    own.brushSides.size + faceCount ≤ RecordKind.brushSide.limit &&
    own.brushes.size < RecordKind.brush.limit &&
    own.leaves.size < RecordKind.leaf.limit &&
    own.leafBrushes.size < RecordKind.leafBrush.limit

end Records

end BoxHull

/-- The records of a level followed by those of the hull of a box. -/
def Records.withBoxHull
    {S : Type} [Scalar S]
    (own : Records S)
    (emptyLeaf : Nat)
    (bounds : Box S) : Records S :=
  { own with
    planes := own.planes ++ BoxHull.planes bounds
    nodes :=
      own.nodes ++
        (Array.range BoxHull.faceCount).map (BoxHull.node own emptyLeaf)
    leaves := own.leaves.push (BoxHull.leaf own)
    leafBrushes := own.leafBrushes.push own.brushes.size
    brushes := own.brushes.push (BoxHull.brush own)
    brushSides :=
      own.brushSides ++
        (Array.range BoxHull.faceCount).map (BoxHull.brushSide own) }

end LevelCollision
