import LevelCollision.File.Reading
import LevelCollision.Level.Records
import LevelCollision.Text.Lossy

namespace LevelCollision

/-!
# Records in a file

Each kind of record has a layout of its own. A reader takes the fields of a record
and answers with a reading: whether the numbers in the record can mean anything by
themselves. Whether they name something that exists is asked later, of all records
together.
-/

namespace Layout

/-- A number that names another record, and so is not negative. -/
def reference
    (kind : Reference)
    (stored : Int) : Reading Nat := do
  Reading.require (decide (0 ≤ stored)) (.badIndex kind stored 0)
  return stored.toNat

/-- The meaningful flags of a word of contents. -/
def contents
    (word : UInt32) : Reading Contents := do
  if Contents.unknownBits word ≠ 0 then
    Reading.note (.unknownContents (Contents.unknownBits word))
  return .ofBits word

/-- Three scalars. -/
def vector : Fields (Vec3 Float32) := do
  let x ← Fields.scalar
  let y ← Fields.scalar
  let z ← Fields.scalar
  return ⟨x, y, z⟩

/-- A child of a node, or the head of a model. -/
def child : Fields Child := do
  let stored ← Fields.integer32
  return .ofStored stored

/-- A surface: texture axes, flags, a value, a name and the next frame. -/
def surface : Fields (Reading Surface) := do
  Fields.skip 32
  let flags ← Fields.integer32
  let number ← Fields.integer32
  let name ← Fields.take 32
  let _ ← Fields.integer32
  return .value
    { name := Lossy.decodeToZero name
      flags := flags
      value := number }

/-- A leaf: contents, cluster, area, bounds, faces and brushes. -/
def leaf : Fields (Reading Leaf) := do
  let word ← Fields.word32
  let cluster ← Fields.integer16
  let area ← Fields.integer16
  Fields.skip 16
  let first ← Fields.natural16
  let count ← Fields.natural16
  return do
    let contents ← contents word
    let cluster ←
      if cluster = -1 then
        pure none
      else
        some <$> reference .leafCluster cluster
    let area ← reference .leafArea area
    return {
      contents := contents
      cluster := cluster
      area := area
      brushes := ⟨first, count⟩ }

/-- A leaf brush: the brush alone. -/
def leafBrush : Fields (Reading Nat) := do
  let brush ← Fields.natural16
  return .value brush

/-- A plane: normal, distance and kind. -/
def plane
    (id : Nat) : Fields (Reading (Plane Float32)) := do
  let normal ← vector
  let dist ← Fields.scalar
  let number ← Fields.integer32
  return (
    match PlaneKind.ofNumber? number with
    | some kind =>
        .value (.ofNormal normal dist kind)
    | none =>
        .refuse (.badPlaneKind id number))

/-- A brush: its sides and its contents. -/
def brush : Fields (Reading Brush) := do
  let first ← Fields.integer32
  let count ← Fields.integer32
  let word ← Fields.word32
  return do
    let contents ← contents word
    let first ← reference .brushSide first
    let count ← reference .brushSide count
    return { contents := contents, sides := ⟨first, count⟩ }

/-- A brush side: its plane and its surface, which may be missing. -/
def brushSide
    (surfaces : Nat) : Fields (Reading BrushSide) := do
  let plane ← Fields.natural16
  let stored ← Fields.integer16
  return do
    let surface ←
      if stored < 0 then
        pure none
      else do
        Reading.require (decide (stored.toNat < surfaces))
          (.badIndex .brushSideSurface stored surfaces)
        pure (some stored.toNat)
    return { plane := plane, surface := surface }

/--
A model: bounds, origin, head and faces. Its bounds are spread by one unit, which
covers the rounding of the compiler that made them.
-/
def model : Fields (Reading (Model Float32)) := do
  let mins ← vector
  let maxs ← vector
  let origin ← vector
  let head ← child
  Fields.skip 8
  return .value
    { bounds := ({ mins := mins, maxs := maxs } : Box Float32).grow 1
      origin := origin
      head := head }

/-- A node: its plane, its children, bounds and faces. -/
def node : Fields (Reading Node) := do
  let plane ← Fields.integer32
  let front ← child
  let back ← child
  Fields.skip 16
  return do
    let plane ← reference .nodePlane plane
    return { plane := plane, front := front, back := back }

/-- An area: how many portals it has, and the first of them. -/
def area : Fields (Reading Area) := do
  let count ← Fields.integer32
  let first ← Fields.integer32
  return do
    let first ← reference .areaPortal first
    let count ← reference .areaPortal count
    return { portals := ⟨first, count⟩ }

/-- An area portal: its number and the area behind it. -/
def areaPortal : Fields (Reading AreaPortal) := do
  let number ← Fields.integer32
  let other ← Fields.integer32
  return do
    let number ← reference .portalNumber number
    let other ← reference .area other
    return { number := number, otherArea := other }

end Layout

end LevelCollision
