import LevelCollision.Geometry.Plane
import LevelCollision.Level.Contents

namespace LevelCollision

/-!
# Records of a level

The level is a binary tree of nodes over leaves. A node holds the plane that
splits its space, a leaf the contents of its space and the brushes that reach into
it, and a brush the planes that bound it. Models name the nodes at which their
trees begin. Areas group leaves and are joined by portals.

Records name one another by their position in the level's arrays. A `Span` names
a run of positions.
-/

/-- A run of positions in an array. -/
structure Span where
  first : Nat
  count : Nat
  deriving DecidableEq, Repr

namespace Span

/-- The position after the run. -/
def stop
    (span : Span) : Nat :=
  span.first + span.count

/-- The entries of the run, if the array has all of them. -/
def slice?
    {α : Type}
    (span : Span)
    (entries : Array α) : Option (List α) :=
  if span.stop ≤ entries.size then
    some (entries.extract span.first span.stop).toList
  else
    none

end Span

/-- What lies on one side of a node. -/
inductive Child where
  | node (id : Nat)
  | leaf (id : Nat)
  deriving DecidableEq, Repr

/-- Child of a stored number: `-1 - n` stands for leaf `n`. -/
def Child.ofStored
    (stored : Int) : Child :=
  if stored < 0 then
    .leaf (-1 - stored).toNat
  else
    .node stored.toNat

/-- A node of the tree. -/
structure Node where
  plane : Nat
  front : Child
  back : Child
  deriving DecidableEq, Repr

/-- The child on one side of a node. -/
def Node.child
    (node : Node) :
    Side → Child
  | .front => node.front
  | .back => node.back

/-- A leaf of the tree. -/
structure Leaf where
  contents : Contents
  /-- Visibility cluster, for leaves that can be seen from. -/
  cluster : Option Nat
  area : Nat
  /-- Positions in the list of leaf brushes. -/
  brushes : Span
  deriving DecidableEq, Repr

/-- A convex solid. -/
structure Brush where
  contents : Contents
  /-- Positions in the list of brush sides. -/
  sides : Span
  deriving DecidableEq, Repr

/-- One side of a brush: the brush is behind its plane. -/
structure BrushSide where
  plane : Nat
  surface : Option Nat
  deriving DecidableEq, Repr

/-- Surface properties of brush sides. -/
structure Surface where
  name : String
  flags : Int
  value : Int
  deriving DecidableEq, Repr

/-- The world, or an entity made of brushes. -/
structure Model (S : Type) where
  bounds : Box S
  origin : Vec3 S
  head : Child
  deriving DecidableEq

/-- Extent of a model along each axis. -/
def Model.size
    {S : Type} [Scalar S]
    (model : Model S) : Vec3 S :=
  model.bounds.maxs - model.bounds.mins

/-- A region of the level that portals close off. -/
structure Area where
  /-- Positions in the list of area portals. -/
  portals : Span
  deriving DecidableEq, Repr

/-- One way out of an area. -/
structure AreaPortal where
  /-- Number of the door that opens and closes this way. -/
  number : Nat
  otherArea : Nat
  deriving DecidableEq, Repr

/-- The arrays of a level. -/
structure Records (S : Type) where
  planes : Array (Plane S) := #[]
  nodes : Array Node := #[]
  leaves : Array Leaf := #[]
  leafBrushes : Array Nat := #[]
  brushes : Array Brush := #[]
  brushSides : Array BrushSide := #[]
  surfaces : Array Surface := #[]
  models : Array (Model S) := #[]
  areas : Array Area := #[]
  areaPortals : Array AreaPortal := #[]
  deriving DecidableEq

end LevelCollision
