import LevelCollision.Proofs.References
import LevelCollision.Proofs.StoredRecords

namespace LevelCollision

/-!
# Levels as they are stored

A stored level is what a file says about a level. `Serialises` relates it to the
files that say so: an identifier and a version, a table with an offset and a size
for each lump, and anywhere in the file, in any order and perhaps over one another,
the lumps. Lumps of other kinds may hold anything.

`records`, `clusterCount` and `Visibility.table` are what the stored level stands
for, and `Loadable` is what it has to meet to be a level.
-/

namespace Stored

/-- The bytes hold these records one behind the other. -/
inductive InOrder
    {α : Type}
    (encodes : α → List UInt8 → Prop) :
    List α → List UInt8 → Prop where
  | nil :
      InOrder encodes [] []
  | cons
      {entry : α}
      {rest : List α}
      {bytes more : List UInt8} :
      encodes entry bytes →
      InOrder encodes rest more →
      InOrder encodes (entry :: rest) (bytes ++ more)

/-- Visibility of clusters: where the two rows of each begin, and all rows. -/
structure Visibility where
  offsets : List (Int32 × Int32)
  rows : List UInt8

/-- The two offsets of a cluster. -/
def Visibility.offsetBytes
    (offsets : Int32 × Int32) : List UInt8 :=
  bytes32 offsets.1.toUInt32 ++ bytes32 offsets.2.toUInt32

/-- The visibility lump: the number of clusters, their offsets and the rows. -/
def Visibility.bytes
    (visibility : Visibility) : List UInt8 :=
  bytes32 (UInt32.ofNat visibility.offsets.length) ++
    visibility.offsets.flatMap offsetBytes ++ visibility.rows

/-- The rows with the offsets at which they begin in the lump. -/
def Visibility.table
    (visibility : Visibility) : VisibilityTable where
  bytes := visibility.bytes
  offsets :=
    (visibility.offsets.map fun offsets =>
      { sight := offsets.1.toInt.toNat
        hearing := offsets.2.toInt.toNat : RowOffsets }).toArray

/-- A number that is an offset in the visibility lump. -/
def Visibility.HasOffset
    (visibility : Visibility)
    (offset : Int32) : Prop :=
  0 ≤ offset.toInt ∧ offset.toInt < visibility.bytes.length

structure Level where
  version : Int32
  surfaces : List Surface
  leaves : List Leaf
  leafBrushes : List UInt16
  planes : List Plane
  brushes : List Brush
  brushSides : List BrushSide
  models : List Model
  nodes : List Node
  areas : List Area
  areaPortals : List AreaPortal
  visibility : Option Visibility
  entities : List UInt8

namespace Level

/-- Number of stored records of a kind. -/
def count
    (level : Level) : RecordKind → Nat
  | .surface => level.surfaces.length
  | .leaf => level.leaves.length
  | .leafBrush => level.leafBrushes.length
  | .plane => level.planes.length
  | .brush => level.brushes.length
  | .brushSide => level.brushSides.length
  | .model => level.models.length
  | .node => level.nodes.length
  | .area => level.areas.length
  | .areaPortal => level.areaPortals.length

/-- The visibility lump, which is empty without visibility. -/
def visibilityBytes
    (level : Level) : List UInt8 :=
  match level.visibility with
  | some visibility => visibility.bytes
  | none => []

/-- The bytes are those of a lump of the level. -/
def Holds
    (level : Level)
    (id : LumpId)
    (lump : List UInt8) : Prop :=
  match id with
  | .entities => lump = level.entities
  | .planes => InOrder Plane.Encodes level.planes lump
  | .visibility => lump = level.visibilityBytes
  | .nodes => InOrder Node.Encodes level.nodes lump
  | .texInfo => InOrder Surface.Encodes level.surfaces lump
  | .leaves => InOrder Leaf.Encodes level.leaves lump
  | .leafBrushes => InOrder LeafBrush.Encodes level.leafBrushes lump
  | .models => InOrder Model.Encodes level.models lump
  | .brushes => InOrder Brush.Encodes level.brushes lump
  | .brushSides => InOrder BrushSide.Encodes level.brushSides lump
  | .areas => InOrder Area.Encodes level.areas lump
  | .areaPortals => InOrder AreaPortal.Encodes level.areaPortals lump
  | .vertices | .faces | .lighting | .leafFaces | .edges | .surfEdges
  | .pop => True

/-- The identifier that a file begins with, as characters. -/
def identBytes : List UInt8 :=
  ['I', 'B', 'S', 'P'].map fun letter => UInt8.ofNat letter.toNat

/-- The bytes are a file of the level. -/
structure Serialises
    (level : Level)
    (bytes : List UInt8) : Prop where
  mark :
    identBytes ++ bytes32 level.version.toUInt32 <+: bytes
  lumps :
    ∀ id : LumpId,
      ∃ offset size : Int32,
        bytes32 offset.toUInt32 ++ bytes32 size.toUInt32 <+:
            bytes.drop (8 + 8 * id.index) ∧
          0 ≤ offset.toInt ∧
          0 ≤ size.toInt ∧
          offset.toInt + size.toInt ≤ bytes.length ∧
          level.Holds id
            ((bytes.drop offset.toInt.toNat).take size.toInt.toNat)

/-- The records that the stored ones stand for, with those of the surfaces. -/
def records
    (level : Level)
    (surfaces : List LevelCollision.Surface) : Records Float32 where
  planes := (level.planes.map Plane.meaning).toArray
  nodes := (level.nodes.map Node.meaning).toArray
  leaves := (level.leaves.map Leaf.meaning).toArray
  leafBrushes := (level.leafBrushes.map UInt16.toNat).toArray
  brushes := (level.brushes.map Brush.meaning).toArray
  brushSides := (level.brushSides.map BrushSide.meaning).toArray
  surfaces := surfaces.toArray
  models := (level.models.map Model.meaning).toArray
  areas :=
    match level.areas with
    | [] => #[{ portals := ⟨0, 0⟩ }]
    | areas => (areas.map Area.meaning).toArray
  areaPortals := (level.areaPortals.map AreaPortal.meaning).toArray

/-- Without visibility there are as many clusters as leaves. -/
def clusterCount
    (level : Level) : Nat :=
  match level.visibility with
  | some visibility => visibility.offsets.length
  | none => level.leaves.length

/-- What a stored level has to meet to be a level. -/
structure Loadable
    (level : Level) : Prop where
  version :
    level.version.toInt = 38 ∨ level.version.toInt = 69
  withinLimits :
    ∀ kind, level.count kind ≤ kind.limit
  present :
    ∀ kind, kind.required = true → 0 < level.count kind
  visibilitySize :
    level.visibilityBytes.length ≤ visibilityLimit
  visibilityOffsets :
    ∀ visibility ∈ level.visibility,
      ∀ offsets ∈ visibility.offsets,
        visibility.HasOffset offsets.1 ∧ visibility.HasOffset offsets.2
  entitySize :
    level.entities.length ≤ entityTextLimit
  leaves :
    ∀ leaf ∈ level.leaves, leaf.Readable
  brushes :
    ∀ brush ∈ level.brushes, brush.Readable
  nodes :
    ∀ node ∈ level.nodes, node.Readable
  areas :
    ∀ area ∈ level.areas, area.Readable
  areaPortals :
    ∀ portal ∈ level.areaPortals, portal.Readable
  /-- Every number that names a record names one that exists. -/
  closed :
    ∀ surfaces : List LevelCollision.Surface,
      surfaces.length = level.surfaces.length →
        (level.records surfaces).Closed level.clusterCount
  outsideIsSolid :
    ∃ leaf ∈ level.leaves.head?, contents leaf.contents = .solid
  hasEmptyLeaf :
    ∃ leaf ∈ level.leaves.tail, contents leaf.contents = .empty
  /-- The records of a box hull still fit behind those of the level. -/
  room :
    level.nodes.length + 6 ≤ RecordKind.node.limit ∧
      level.planes.length + 12 ≤ RecordKind.plane.limit ∧
      level.brushSides.length + 6 ≤ RecordKind.brushSide.limit ∧
      level.brushes.length + 1 ≤ RecordKind.brush.limit ∧
      level.leaves.length + 1 ≤ RecordKind.leaf.limit ∧
      level.leafBrushes.length + 1 ≤ RecordKind.leafBrush.limit

end Level

end Stored

end LevelCollision
