namespace LevelCollision

/-!
# Lumps

A level file is a header, a table of nineteen lumps and the lumps themselves. The
table lists the lumps in the order given here.
-/

/-- Name of a lump. -/
inductive LumpId where
  | entities
  | planes
  | vertices
  | visibility
  | nodes
  | texInfo
  | faces
  | lighting
  | leaves
  | leafFaces
  | leafBrushes
  | edges
  | surfEdges
  | models
  | brushes
  | brushSides
  | pop
  | areas
  | areaPortals
  deriving DecidableEq, Repr

namespace LumpId

/-- Number of lumps in a file. -/
abbrev count : Nat := 19

/-- Position of a lump in the table. -/
def index : LumpId → Fin count
  | .entities => 0
  | .planes => 1
  | .vertices => 2
  | .visibility => 3
  | .nodes => 4
  | .texInfo => 5
  | .faces => 6
  | .lighting => 7
  | .leaves => 8
  | .leafFaces => 9
  | .leafBrushes => 10
  | .edges => 11
  | .surfEdges => 12
  | .models => 13
  | .brushes => 14
  | .brushSides => 15
  | .pop => 16
  | .areas => 17
  | .areaPortals => 18

/-- The lumps in table order. -/
def all : Vector LumpId count :=
  #v[
    .entities, .planes, .vertices, .visibility, .nodes, .texInfo, .faces,
    .lighting, .leaves, .leafFaces, .leafBrushes, .edges, .surfEdges,
    .models, .brushes, .brushSides, .pop, .areas, .areaPortals]

/-- The table order lists each lump at its position. -/
@[simp] theorem all_get_index
    (id : LumpId) :
    all.get id.index = id := by
  cases id <;> rfl

/-- Name of a lump in messages. -/
def name : LumpId → String
  | .entities => "Entities"
  | .planes => "Planes"
  | .vertices => "Vertices"
  | .visibility => "Visibility"
  | .nodes => "Nodes"
  | .texInfo => "TexInfo"
  | .faces => "Faces"
  | .lighting => "Lighting"
  | .leaves => "Leaves"
  | .leafFaces => "LeafFaces"
  | .leafBrushes => "LeafBrushes"
  | .edges => "Edges"
  | .surfEdges => "SurfEdges"
  | .models => "Models"
  | .brushes => "Brushes"
  | .brushSides => "BrushSides"
  | .pop => "Pop"
  | .areas => "Areas"
  | .areaPortals => "AreaPortals"

end LumpId

end LevelCollision
