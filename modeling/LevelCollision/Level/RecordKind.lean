import LevelCollision.Level.LumpId

namespace LevelCollision

/-!
# Kinds of records

Ten lumps are arrays of records of a fixed size. For each kind this table gives
the lump that holds its records, their size in bytes, how many a level may have,
and whether a level needs at least one.
-/

/-- A kind of record that a level is made of. -/
inductive RecordKind where
  | surface
  | leaf
  | leafBrush
  | plane
  | brush
  | brushSide
  | model
  | node
  | area
  | areaPortal
  deriving DecidableEq, Repr

namespace RecordKind

/-- The lump that holds the records. -/
def lump : RecordKind → LumpId
  | .surface => .texInfo
  | .leaf => .leaves
  | .leafBrush => .leafBrushes
  | .plane => .planes
  | .brush => .brushes
  | .brushSide => .brushSides
  | .model => .models
  | .node => .nodes
  | .area => .areas
  | .areaPortal => .areaPortals

/-- Bytes of one record. -/
def size : RecordKind → Nat
  | .surface => 76
  | .leaf => 28
  | .leafBrush => 2
  | .plane => 20
  | .brush => 12
  | .brushSide => 4
  | .model => 48
  | .node => 28
  | .area => 8
  | .areaPortal => 8

/-- Largest number of records in a level. -/
def limit : RecordKind → Nat
  | .surface => 8192
  | .leaf => 65536
  | .leafBrush => 65536
  | .plane => 65536
  | .brush => 8192
  | .brushSide => 65536
  | .model => 1024
  | .node => 65536
  | .area => 256
  | .areaPortal => 1024

/-- Whether a level without such a record is refused. -/
def required : RecordKind → Bool
  | .surface => true
  | .leaf => true
  | .leafBrush => true
  | .plane => true
  | .brush => false
  | .brushSide => false
  | .model => true
  | .node => true
  | .area => false
  | .areaPortal => false

/-- The records' name in messages. -/
def plural : RecordKind → String
  | .surface => "surfaces"
  | .leaf => "leaves"
  | .leafBrush => "leaf brushes"
  | .plane => "planes"
  | .brush => "brushes"
  | .brushSide => "brush sides"
  | .model => "models"
  | .node => "nodes"
  | .area => "areas"
  | .areaPortal => "area portals"

/-- Every record takes at least one byte. -/
theorem size_pos
    (kind : RecordKind) :
    0 < kind.size := by
  cases kind <;> decide

end RecordKind

/-- Largest size of the visibility lump in bytes. -/
def visibilityLimit : Nat := 0x100000

/-- Largest size of the entity text in bytes. -/
def entityTextLimit : Nat := 0x40000

end LevelCollision
