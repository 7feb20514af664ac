import LevelCollision.Proofs.StoredLevel

namespace LevelCollision

/-!
# Writing levels

Every stored level that is not too large has a file. `packed` is one of them: the
lumps follow the table and one another in the order of the table, without gaps, and
every byte that has no meaning is zero.
-/

namespace Stored

/-- Bytes that have no meaning. -/
def zeros
    (count : Nat) : List UInt8 :=
  List.replicate count 0

@[simp] theorem length_zeros
    (count : Nat) :
    (zeros count).length = count :=
  List.length_replicate

def Surface.bytes
    (surface : Surface) : List UInt8 :=
  zeros 32 ++ bytes32 surface.flags.toUInt32 ++
    bytes32 surface.value.toUInt32 ++ surface.name.toList ++ zeros 4

def Leaf.bytes
    (leaf : Leaf) : List UInt8 :=
  bytes32 leaf.contents ++ bytes16 leaf.cluster.toUInt16 ++
    bytes16 leaf.area.toUInt16 ++ zeros 16 ++ bytes16 leaf.firstBrush ++
    bytes16 leaf.brushCount

def Plane.bytes
    (plane : Plane) : List UInt8 :=
  bytesOfWords plane.normal ++ bytes32 plane.dist ++
    bytes32 (Int32.ofInt plane.kind.number).toUInt32

def Brush.bytes
    (brush : Brush) : List UInt8 :=
  bytes32 brush.firstSide.toUInt32 ++ bytes32 brush.sideCount.toUInt32 ++
    bytes32 brush.contents

def BrushSide.bytes
    (side : BrushSide) : List UInt8 :=
  bytes16 side.plane ++ bytes16 side.surface.toUInt16

def Model.bytes
    (model : Model) : List UInt8 :=
  bytesOfWords model.mins ++ bytesOfWords model.maxs ++
    bytesOfWords model.origin ++ bytes32 model.head.toUInt32 ++ zeros 8

def Node.bytes
    (node : Node) : List UInt8 :=
  bytes32 node.plane.toUInt32 ++ bytes32 node.front.toUInt32 ++
    bytes32 node.back.toUInt32 ++ zeros 16

def Area.bytes
    (area : Area) : List UInt8 :=
  bytes32 area.portalCount.toUInt32 ++ bytes32 area.firstPortal.toUInt32

def AreaPortal.bytes
    (portal : AreaPortal) : List UInt8 :=
  bytes32 portal.number.toUInt32 ++ bytes32 portal.otherArea.toUInt32

theorem Surface.encodes_bytes
    (surface : Surface) :
    surface.Encodes surface.bytes :=
  ⟨zeros 32, zeros 4, length_zeros 32, length_zeros 4, rfl⟩

theorem Leaf.encodes_bytes
    (leaf : Leaf) :
    leaf.Encodes leaf.bytes :=
  ⟨zeros 16, length_zeros 16, rfl⟩

theorem LeafBrush.encodes_bytes
    (brush : UInt16) :
    LeafBrush.Encodes brush (bytes16 brush) :=
  rfl

theorem Plane.encodes_bytes
    (plane : Plane) :
    plane.Encodes plane.bytes := by
  refine ⟨Int32.ofInt plane.kind.number, ?_, rfl⟩
  cases plane.kind with
  | axial axis =>
      cases axis <;> rfl
  | dominant axis =>
      cases axis <;> rfl
  | general =>
      rfl

theorem Brush.encodes_bytes
    (brush : Brush) :
    brush.Encodes brush.bytes :=
  rfl

theorem BrushSide.encodes_bytes
    (side : BrushSide) :
    side.Encodes side.bytes :=
  rfl

theorem Model.encodes_bytes
    (model : Model) :
    model.Encodes model.bytes :=
  ⟨zeros 8, length_zeros 8, rfl⟩

theorem Node.encodes_bytes
    (node : Node) :
    node.Encodes node.bytes :=
  ⟨zeros 16, length_zeros 16, rfl⟩

theorem Area.encodes_bytes
    (area : Area) :
    area.Encodes area.bytes :=
  rfl

theorem AreaPortal.encodes_bytes
    (portal : AreaPortal) :
    portal.Encodes portal.bytes :=
  rfl

/-- Records written one behind the other are held in order. -/
theorem inOrder_flatMap
    {α : Type}
    {encodes : α → List UInt8 → Prop}
    {write : α → List UInt8}
    (each : ∀ entry, encodes entry (write entry))
    (entries : List α) :
    InOrder encodes entries (entries.flatMap write) := by
  induction entries with
  | nil =>
      exact .nil
  | cons entry rest inductionHypothesis =>
      exact .cons (each entry) inductionHypothesis

/-- What the blocks before a position take up is passed over to reach the rest. -/
theorem drop_flatMap_take
    {α : Type}
    (write : α → List UInt8)
    (entries : List α)
    (position : Nat) :
    (entries.flatMap write).drop
        ((entries.take position).flatMap write).length =
      (entries.drop position).flatMap write := by
  calc (entries.flatMap write).drop
          ((entries.take position).flatMap write).length
      = ((entries.take position ++ entries.drop position).flatMap write).drop
          ((entries.take position).flatMap write).length := by
        rw [List.take_append_drop]
    _ = (entries.drop position).flatMap write := by
        rw [List.flatMap_append, List.drop_left]

/-- Blocks of one size take up as much as there are of them. -/
theorem length_flatMap_of_length
    {α : Type}
    {write : α → List UInt8}
    {size : Nat}
    (each : ∀ entry, (write entry).length = size)
    (entries : List α) :
    (entries.flatMap write).length = entries.length * size := by
  induction entries with
  | nil =>
      simp
  | cons entry rest inductionHypothesis =>
      rw [List.flatMap_cons, List.length_append, each, inductionHypothesis,
        List.length_cons, Nat.succ_mul, Nat.add_comm]

namespace Level

/-- What is written for a lump. -/
def lumpBytes
    (level : Level) : LumpId → List UInt8
  | .entities => level.entities
  | .planes => level.planes.flatMap Plane.bytes
  | .visibility => level.visibilityBytes
  | .nodes => level.nodes.flatMap Node.bytes
  | .texInfo => level.surfaces.flatMap Surface.bytes
  | .leaves => level.leaves.flatMap Leaf.bytes
  | .leafBrushes => level.leafBrushes.flatMap bytes16
  | .models => level.models.flatMap Model.bytes
  | .brushes => level.brushes.flatMap Brush.bytes
  | .brushSides => level.brushSides.flatMap BrushSide.bytes
  | .areas => level.areas.flatMap Area.bytes
  | .areaPortals => level.areaPortals.flatMap AreaPortal.bytes
  | .vertices | .faces | .lighting | .leafFaces | .edges | .surfEdges
  | .pop => []

theorem holds_lumpBytes
    (level : Level)
    (id : LumpId) :
    level.Holds id (level.lumpBytes id) := by
  cases id with
  | entities => rfl
  | planes => exact inOrder_flatMap Plane.encodes_bytes _
  | visibility => rfl
  | nodes => exact inOrder_flatMap Node.encodes_bytes _
  | texInfo => exact inOrder_flatMap Surface.encodes_bytes _
  | leaves => exact inOrder_flatMap Leaf.encodes_bytes _
  | leafBrushes => exact inOrder_flatMap LeafBrush.encodes_bytes _
  | models => exact inOrder_flatMap Model.encodes_bytes _
  | brushes => exact inOrder_flatMap Brush.encodes_bytes _
  | brushSides => exact inOrder_flatMap BrushSide.encodes_bytes _
  | areas => exact inOrder_flatMap Area.encodes_bytes _
  | areaPortals => exact inOrder_flatMap AreaPortal.encodes_bytes _
  | vertices | faces | lighting | leafFaces | edges | surfEdges | pop =>
      trivial

/-- Size of what is written for some lumps. -/
def lumpsSize
    (level : Level)
    (ids : List LumpId) : Nat :=
  (ids.flatMap level.lumpBytes).length

/-- A lump begins behind the table and the lumps before it. -/
def offset
    (level : Level)
    (id : LumpId) : Nat :=
  LumpTable.headerSize + level.lumpsSize (LumpId.all.toList.take id.index)

/-- The entry of a lump in the table. -/
def tableEntry
    (level : Level)
    (id : LumpId) : List UInt8 :=
  bytes32 (Int32.ofNat (level.offset id)).toUInt32 ++
    bytes32 (Int32.ofNat (level.lumpBytes id).length).toUInt32

@[simp] theorem length_tableEntry
    (level : Level)
    (id : LumpId) :
    (level.tableEntry id).length = LumpTable.entrySize := by
  simp [tableEntry, LumpTable.entrySize]

/-- The identifier, the version and the table of a packed level. -/
def header
    (level : Level) : List UInt8 :=
  identBytes ++ bytes32 level.version.toUInt32 ++
    LumpId.all.toList.flatMap level.tableEntry

/-- A file of the level. -/
def packed
    (level : Level) : List UInt8 :=
  level.header ++ LumpId.all.toList.flatMap level.lumpBytes

/-- From its position on, the table order begins with a lump. -/
theorem drop_all_index
    (id : LumpId) :
    ∃ later, LumpId.all.toList.drop id.index = id :: later := by
  cases id <;> exact ⟨_, rfl⟩

theorem length_header
    (level : Level) :
    level.header.length = LumpTable.headerSize := by
  have table :=
    length_flatMap_of_length level.length_tableEntry LumpId.all.toList
  rw [header, List.length_append, List.length_append, table, length_bytes32]
  rfl

/-- The entry of a lump stands at its position in the table. -/
theorem tableEntry_prefix_packed
    (level : Level)
    (id : LumpId) :
    level.tableEntry id <+: level.packed.drop (8 + 8 * id.index) := by
  obtain ⟨later, rest⟩ := drop_all_index id
  have before :
      ((LumpId.all.toList.take id.index).flatMap level.tableEntry).length =
        8 * id.index := by
    rw [length_flatMap_of_length level.length_tableEntry, List.length_take,
      Vector.length_toList, Nat.min_eq_left (Nat.le_of_lt id.index.isLt),
      Nat.mul_comm]
    rfl
  have mark :
      (identBytes ++ bytes32 level.version.toUInt32).length = 8 := by
    rw [List.length_append, length_bytes32]
    rfl
  have table := drop_flatMap_take level.tableEntry LumpId.all.toList id.index
  rw [before, rest, List.flatMap_cons] at table
  have reached :
      level.packed.drop (8 + 8 * id.index) =
        ((LumpId.all.toList.flatMap level.tableEntry) ++
            LumpId.all.toList.flatMap level.lumpBytes).drop
          (8 * id.index) := by
    rw [packed, header, List.append_assoc, ← List.drop_drop,
      List.drop_left' mark]
  rw [reached, List.drop_append, table, List.append_assoc]
  exact List.prefix_append _ _

/-- The bytes of a lump stand at its offset. -/
theorem lumpBytes_prefix_packed
    (level : Level)
    (id : LumpId) :
    level.lumpBytes id <+: level.packed.drop (level.offset id) := by
  obtain ⟨later, rest⟩ := drop_all_index id
  have lumps := drop_flatMap_take level.lumpBytes LumpId.all.toList id.index
  rw [rest, List.flatMap_cons] at lumps
  have reached :
      level.packed.drop (level.offset id) =
        (LumpId.all.toList.flatMap level.lumpBytes).drop
          (level.lumpsSize (LumpId.all.toList.take id.index)) := by
    rw [packed, offset, ← List.drop_drop,
      List.drop_left' (length_header level)]
  rw [reached, lumpsSize, lumps]
  exact List.prefix_append _ _

/-- The bytes of a lump end in the file. -/
theorem offset_add_length_le
    (level : Level)
    (id : LumpId) :
    level.offset id + (level.lumpBytes id).length ≤ level.packed.length := by
  obtain ⟨later, rest⟩ := drop_all_index id
  have parts :
      level.lumpsSize LumpId.all.toList =
        level.lumpsSize (LumpId.all.toList.take id.index) +
          ((level.lumpBytes id).length + level.lumpsSize later) := by
    rw [lumpsSize, lumpsSize, lumpsSize, ← List.length_append, ← List.flatMap_cons,
      ← rest, ← List.length_append, ← List.flatMap_append,
      List.take_append_drop]
  have whole :
      level.packed.length =
        LumpTable.headerSize + level.lumpsSize LumpId.all.toList := by
    rw [packed, List.length_append, length_header, lumpsSize]
  rw [whole, parts, offset]
  omega

/-- A packed level is a file of the level, unless it is too large for offsets. -/
theorem serialises_packed
    {level : Level}
    (fits : level.packed.length < 0x80000000) :
    level.Serialises level.packed where
  mark := by
    rw [packed, header, List.append_assoc]
    exact List.prefix_append _ _
  lumps id := by
    have inFile := level.offset_add_length_le id
    have offset : (Int32.ofNat (level.offset id)).toInt = level.offset id :=
      Int32.toInt_ofNat_of_lt (by omega)
    have size :
        (Int32.ofNat (level.lumpBytes id).length).toInt =
          (level.lumpBytes id).length :=
      Int32.toInt_ofNat_of_lt (by omega)
    refine
      ⟨Int32.ofNat (level.offset id), Int32.ofNat (level.lumpBytes id).length,
        level.tableEntry_prefix_packed id, ?_, ?_, ?_, ?_⟩
    · rw [offset]
      exact Int.natCast_nonneg _
    · rw [size]
      exact Int.natCast_nonneg _
    · rw [offset, size]
      exact_mod_cast inFile
    · rw [offset, size, Int.toNat_natCast, Int.toNat_natCast,
        ← List.prefix_iff_eq_take.mp (level.lumpBytes_prefix_packed id)]
      exact level.holds_lumpBytes id

/--
A level of two leaves on either side of one plane, the solid one behind a brush, and
of two areas that one door joins.
-/
def doorway : Level where
  version := 38
  surfaces := [{ flags := 1, value := 0, name := Vector.replicate 32 0 }]
  leaves :=
    [{ contents := 1, cluster := -1, area := 0, firstBrush := 0,
        brushCount := 1 },
      { contents := 0, cluster := 0, area := 1, firstBrush := 0,
        brushCount := 0 }]
  leafBrushes := [0]
  planes :=
    [{ normal := ⟨0x3f800000, 0, 0⟩, dist := 0, kind := .axial .x }]
  brushes := [{ firstSide := 0, sideCount := 1, contents := 1 }]
  brushSides := [{ plane := 0, surface := 0 }]
  models :=
    [{ mins := ⟨0, 0, 0⟩, maxs := ⟨0, 0, 0⟩, origin := ⟨0, 0, 0⟩,
        head := 0 }]
  nodes := [{ plane := 0, front := -2, back := -1 }]
  areas :=
    [{ portalCount := 0, firstPortal := 0 },
      { portalCount := 1, firstPortal := 0 },
      { portalCount := 1, firstPortal := 1 }]
  areaPortals :=
    [{ number := 1, otherArea := 2 }, { number := 1, otherArea := 1 }]
  visibility := none
  entities := []

end Level

end Stored

end LevelCollision
