import LevelCollision.File.Lumps
import LevelCollision.File.Records
import LevelCollision.File.VisibilityLump
import LevelCollision.Level.Validation

namespace LevelCollision

/-!
# Reading a level

The records of each kind are read once their number is known to be right. Then come
the visibility and the entity text, and last the checks of all records together.

A file without areas has one area without portals. A file without visibility has as
many clusters as leaves.
-/

namespace LumpTable

/-- The records of a kind. -/
def records
    {α : Type}
    (table : LumpTable)
    (kind : RecordKind)
    (record : Nat → Fields (Reading α)) : Reading (Array α) := do
  let size := table.size kind.lump
  Reading.require (size % kind.size == 0)
    (.badLumpSize kind.lump size kind.size)
  let count := size / kind.size
  Reading.require (decide (count ≤ kind.limit))
    (.tooMany (.records kind) count kind.limit)
  Reading.require (!kind.required || decide (0 < count)) (.missing kind)
  Reading.records kind.size count record (table.lump kind.lump)

/-- The areas, of which there is at least one. -/
def areas
    (table : LumpTable) : Reading (Array Area) := do
  let areas ← table.records .area fun _ => Layout.area
  return if areas.isEmpty then #[{ portals := ⟨0, 0⟩ }] else areas

/-- The visibility, unless its lump is empty. -/
def visibility
    (table : LumpTable) : Reading (Option VisibilityTable) := do
  let size := table.size .visibility
  Reading.require (decide (size ≤ visibilityLimit))
    (.tooMany .visibilityBytes size visibilityLimit)
  if size = 0 then
    return none
  else
    let table ← Layout.visibilityTable (table.lump .visibility)
    return some table

/-- The bytes of the entity text. -/
def entityBytes
    (table : LumpTable) : Reading (List UInt8) := do
  let size := table.size .entities
  Reading.require (decide (size ≤ entityTextLimit))
    (.tooMany .entityTextBytes size entityTextLimit)
  return table.lump .entities

/-- All records of a file. -/
def allRecords
    (table : LumpTable) : Reading (Records Float32) := do
  let surfaces ← table.records .surface fun _ => Layout.surface
  let leaves ← table.records .leaf fun _ => Layout.leaf
  let leafBrushes ← table.records .leafBrush fun _ => Layout.leafBrush
  let planes ← table.records .plane Layout.plane
  let brushes ← table.records .brush fun _ => Layout.brush
  let brushSides ←
    table.records .brushSide fun _ => Layout.brushSide surfaces.size
  let models ← table.records .model fun _ => Layout.model
  let nodes ← table.records .node fun _ => Layout.node
  let areas ← table.areas
  let areaPortals ← table.records .areaPortal fun _ => Layout.areaPortal
  return {
    planes := planes
    nodes := nodes
    leaves := leaves
    leafBrushes := leafBrushes
    brushes := brushes
    brushSides := brushSides
    surfaces := surfaces
    models := models
    areas := areas
    areaPortals := areaPortals }

end LumpTable

namespace Level

/-- What there is to notice about a level that was read. -/
def arrival
    (level : Level Float32) : Notice :=
  .loaded level.own.planes.size level.own.nodes.size level.own.leaves.size
    level.own.brushes.size level.own.models.size level.clusterCount
    level.own.areas.size

/-- The level in the bytes of a file. -/
def read
    (bytes : List UInt8) : Reading (Level Float32) := do
  let table ← LumpTable.read bytes
  let own ← table.allRecords
  let visibility ← table.visibility
  let entityBytes ← table.entityBytes
  let clusterCount :=
    match visibility with
    | some rows => rows.clusterCount
    | none => own.leaves.size
  match Level.ofRecords own visibility clusterCount entityBytes bytes.length with
  | .ok level =>
      Reading.note level.arrival
      return level
  | .error error =>
      Reading.refuse error

/-- The level in a file, or the reason for which the file could not be read. -/
def ofFile
    (contents : Except String (List UInt8)) : Reading (Level Float32) :=
  match contents with
  | .ok bytes => read bytes
  | .error cause => Reading.refuse (.unreadable cause)

/-- The entity text, up to its first zero byte. -/
def entityText
    {S : Type} [Scalar S]
    (level : Level S) : String :=
  Lossy.decodeToZero level.entityBytes

end Level

end LevelCollision
