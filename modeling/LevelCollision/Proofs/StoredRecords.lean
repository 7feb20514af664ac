import LevelCollision.File.Level
import LevelCollision.Proofs.FieldBytes
import LevelCollision.Proofs.LossyText
import LevelCollision.Proofs.Readings

namespace LevelCollision

/-!
# Records as they are stored

A stored record holds the fields of a record as they stand in a file. `Encodes`
says which bytes store it: the bytes of its fields in the order of the layout, with
any bytes at all where the layout passes over some. `meaning` is the record that
these fields stand for. A surface has a name in it, which is text, and `StandsFor`
says which records are a stored surface's by what the bytes of the name are read as.

A stored record whose numbers can mean something is read back as its meaning.
-/

namespace Stored

/-- What a stored child stands for: `-1 - n` is leaf `n`. -/
def child
    (stored : Int32) : Child :=
  match stored.toInt with
  | .ofNat id => .node id
  | .negSucc id => .leaf id

/-- The number that a field holds, of which a negative one stands for nothing. -/
def optional
    (stored : Int) : Option Nat :=
  match stored with
  | .ofNat id => some id
  | .negSucc _ => none

/-- The flags of a word that have a meaning: the seven lowest, and fifteen from `0x8000` on. -/
def contents
    (word : UInt32) : Contents where
  bits := word &&& 0x3fff807f

/-- The scalars of three words. -/
def scalars
    (words : Vec3 UInt32) : Vec3 Float32 :=
  words.map Float32.ofBits

/-- The bytes of three words. -/
def bytesOfWords
    (words : Vec3 UInt32) : List UInt8 :=
  bytes32 words.x ++ bytes32 words.y ++ bytes32 words.z

structure Surface where
  flags : Int32
  value : Int32
  name : Vector UInt8 32

structure Leaf where
  contents : UInt32
  cluster : Int16
  area : Int16
  firstBrush : UInt16
  brushCount : UInt16

structure Plane where
  normal : Vec3 UInt32
  dist : UInt32
  kind : PlaneKind

structure Brush where
  firstSide : Int32
  sideCount : Int32
  contents : UInt32

structure BrushSide where
  plane : UInt16
  surface : Int16

structure Model where
  mins : Vec3 UInt32
  maxs : Vec3 UInt32
  origin : Vec3 UInt32
  head : Int32

structure Node where
  plane : Int32
  front : Int32
  back : Int32

structure Area where
  portalCount : Int32
  firstPortal : Int32

structure AreaPortal where
  number : Int32
  otherArea : Int32

section Encodes

/-- Texture axes, flags, a value, a name and the next frame. -/
def Surface.Encodes
    (surface : Surface)
    (bytes : List UInt8) : Prop :=
  ∃ axes next : List UInt8,
    axes.length = 32 ∧
      next.length = 4 ∧
      bytes =
        axes ++ bytes32 surface.flags.toUInt32 ++
          bytes32 surface.value.toUInt32 ++ surface.name.toList ++ next

/-- Contents, cluster, area, bounds and faces, and brushes. -/
def Leaf.Encodes
    (leaf : Leaf)
    (bytes : List UInt8) : Prop :=
  ∃ bounds : List UInt8,
    bounds.length = 16 ∧
      bytes =
        bytes32 leaf.contents ++ bytes16 leaf.cluster.toUInt16 ++
          bytes16 leaf.area.toUInt16 ++ bounds ++ bytes16 leaf.firstBrush ++
          bytes16 leaf.brushCount

def LeafBrush.Encodes
    (brush : UInt16)
    (bytes : List UInt8) : Prop :=
  bytes = bytes16 brush

/-- Normal, distance and the number of the kind. -/
def Plane.Encodes
    (plane : Plane)
    (bytes : List UInt8) : Prop :=
  ∃ number : Int32,
    number.toInt = plane.kind.number ∧
      bytes =
        bytesOfWords plane.normal ++ bytes32 plane.dist ++
          bytes32 number.toUInt32

/-- Sides and contents. -/
def Brush.Encodes
    (brush : Brush)
    (bytes : List UInt8) : Prop :=
  bytes =
    bytes32 brush.firstSide.toUInt32 ++ bytes32 brush.sideCount.toUInt32 ++
      bytes32 brush.contents

/-- Plane and surface. -/
def BrushSide.Encodes
    (side : BrushSide)
    (bytes : List UInt8) : Prop :=
  bytes = bytes16 side.plane ++ bytes16 side.surface.toUInt16

/-- Bounds, origin, head and faces. -/
def Model.Encodes
    (model : Model)
    (bytes : List UInt8) : Prop :=
  ∃ faces : List UInt8,
    faces.length = 8 ∧
      bytes =
        bytesOfWords model.mins ++ bytesOfWords model.maxs ++
          bytesOfWords model.origin ++ bytes32 model.head.toUInt32 ++ faces

/-- Plane, children, bounds and faces. -/
def Node.Encodes
    (node : Node)
    (bytes : List UInt8) : Prop :=
  ∃ bounds : List UInt8,
    bounds.length = 16 ∧
      bytes =
        bytes32 node.plane.toUInt32 ++ bytes32 node.front.toUInt32 ++
          bytes32 node.back.toUInt32 ++ bounds

/-- How many portals, and the first of them. -/
def Area.Encodes
    (area : Area)
    (bytes : List UInt8) : Prop :=
  bytes =
    bytes32 area.portalCount.toUInt32 ++ bytes32 area.firstPortal.toUInt32

/-- Number and the area behind the portal. -/
def AreaPortal.Encodes
    (portal : AreaPortal)
    (bytes : List UInt8) : Prop :=
  bytes = bytes32 portal.number.toUInt32 ++ bytes32 portal.otherArea.toUInt32

end Encodes

/-!
Each stored record takes up as many bytes as records of its kind do.
-/

section Lengths

variable {bytes : List UInt8}

@[simp] theorem length_bytesOfWords
    (words : Vec3 UInt32) :
    (bytesOfWords words).length = 12 := by
  simp [bytesOfWords]

theorem Surface.length_of_encodes
    {surface : Surface}
    (encoded : surface.Encodes bytes) :
    bytes.length = RecordKind.surface.size := by
  obtain ⟨axes, next, axesLength, nextLength, rfl⟩ := encoded
  simp [axesLength, nextLength, RecordKind.size]

theorem Leaf.length_of_encodes
    {leaf : Leaf}
    (encoded : leaf.Encodes bytes) :
    bytes.length = RecordKind.leaf.size := by
  obtain ⟨bounds, boundsLength, rfl⟩ := encoded
  simp [boundsLength, RecordKind.size]

theorem LeafBrush.length_of_encodes
    {brush : UInt16}
    (encoded : LeafBrush.Encodes brush bytes) :
    bytes.length = RecordKind.leafBrush.size := by
  rw [encoded, length_bytes16]
  rfl

theorem Plane.length_of_encodes
    {plane : Plane}
    (encoded : plane.Encodes bytes) :
    bytes.length = RecordKind.plane.size := by
  obtain ⟨number, _, rfl⟩ := encoded
  simp [RecordKind.size]

theorem Brush.length_of_encodes
    {brush : Brush}
    (encoded : brush.Encodes bytes) :
    bytes.length = RecordKind.brush.size := by
  rw [encoded]
  simp [RecordKind.size]

theorem BrushSide.length_of_encodes
    {side : BrushSide}
    (encoded : side.Encodes bytes) :
    bytes.length = RecordKind.brushSide.size := by
  rw [encoded]
  simp [RecordKind.size]

theorem Model.length_of_encodes
    {model : Model}
    (encoded : model.Encodes bytes) :
    bytes.length = RecordKind.model.size := by
  obtain ⟨faces, facesLength, rfl⟩ := encoded
  simp [facesLength, RecordKind.size]

theorem Node.length_of_encodes
    {node : Node}
    (encoded : node.Encodes bytes) :
    bytes.length = RecordKind.node.size := by
  obtain ⟨bounds, boundsLength, rfl⟩ := encoded
  simp [boundsLength, RecordKind.size]

theorem Area.length_of_encodes
    {area : Area}
    (encoded : area.Encodes bytes) :
    bytes.length = RecordKind.area.size := by
  rw [encoded]
  simp [RecordKind.size]

theorem AreaPortal.length_of_encodes
    {portal : AreaPortal}
    (encoded : portal.Encodes bytes) :
    bytes.length = RecordKind.areaPortal.size := by
  rw [encoded]
  simp [RecordKind.size]

end Lengths

section Meaning

/-- The name ends before its first zero byte, and is read as text. -/
structure Surface.StandsFor
    (stored : Surface)
    (surface : LevelCollision.Surface) : Prop where
  name :
    Lossy.Reads (stored.name.toList.takeWhile (· != 0)) surface.name.toList
  flags :
    surface.flags = stored.flags.toInt
  value :
    surface.value = stored.value.toInt

def Leaf.meaning
    (leaf : Leaf) : LevelCollision.Leaf where
  contents := Stored.contents leaf.contents
  cluster := optional leaf.cluster.toInt
  area := leaf.area.toInt.toNat
  brushes := ⟨leaf.firstBrush.toNat, leaf.brushCount.toNat⟩

/-- The signs are those of the normal. -/
def Plane.meaning
    (plane : Plane) : LevelCollision.Plane Float32 where
  normal := scalars plane.normal
  dist := Float32.ofBits plane.dist
  kind := plane.kind
  signs := (scalars plane.normal).map fun component => decide (component < 0)

def Brush.meaning
    (brush : Brush) : LevelCollision.Brush where
  contents := Stored.contents brush.contents
  sides := ⟨brush.firstSide.toInt.toNat, brush.sideCount.toInt.toNat⟩

def BrushSide.meaning
    (side : BrushSide) : LevelCollision.BrushSide where
  plane := side.plane.toNat
  surface := optional side.surface.toInt

/-- The bounds are spread by one unit, in the arithmetic of the scalars. -/
def Model.meaning
    (model : Model) : LevelCollision.Model Float32 where
  bounds :=
    { mins := (scalars model.mins).map (· - 1)
      maxs := (scalars model.maxs).map (· + 1) }
  origin := scalars model.origin
  head := child model.head

def Node.meaning
    (node : Node) : LevelCollision.Node where
  plane := node.plane.toInt.toNat
  front := child node.front
  back := child node.back

def Area.meaning
    (area : Area) : LevelCollision.Area where
  portals := ⟨area.firstPortal.toInt.toNat, area.portalCount.toInt.toNat⟩

def AreaPortal.meaning
    (portal : AreaPortal) : LevelCollision.AreaPortal where
  number := portal.number.toInt.toNat
  otherArea := portal.otherArea.toInt.toNat

end Meaning

section Readable

/-- The cluster is one or none, and the area is one. -/
def Leaf.Readable
    (leaf : Leaf) : Prop :=
  -1 ≤ leaf.cluster.toInt ∧ 0 ≤ leaf.area.toInt
  deriving Decidable

def Brush.Readable
    (brush : Brush) : Prop :=
  0 ≤ brush.firstSide.toInt ∧ 0 ≤ brush.sideCount.toInt
  deriving Decidable

/-- The surface is one of the level's or none. -/
def BrushSide.Readable
    (surfaceCount : Nat)
    (side : BrushSide) : Prop :=
  side.surface.toInt < surfaceCount
  deriving Decidable

def Node.Readable
    (node : Node) : Prop :=
  0 ≤ node.plane.toInt
  deriving Decidable

def Area.Readable
    (area : Area) : Prop :=
  0 ≤ area.portalCount.toInt ∧ 0 ≤ area.firstPortal.toInt
  deriving Decidable

def AreaPortal.Readable
    (portal : AreaPortal) : Prop :=
  0 ≤ portal.number.toInt ∧ 0 ≤ portal.otherArea.toInt
  deriving Decidable

end Readable

/-- A stored child is read as what it stands for. -/
theorem ofStored_eq_child
    (stored : Int32) :
    Child.ofStored stored.toInt = child stored := by
  unfold Child.ofStored child
  cases stored.toInt with
  | ofNat id =>
      simp
  | negSucc id =>
      simp only [Int.negSucc_lt_zero, ↓reduceIte, Child.leaf.injEq]
      omega

/-- Three words are read as a vector. -/
@[simp] theorem run_vector
    (words : Vec3 UInt32)
    (rest : List UInt8) :
    Layout.vector.run (bytesOfWords words ++ rest) =
      some (scalars words, rest) := by
  simp [Layout.vector, bytesOfWords, scalars, Vec3.map]

@[simp] theorem run_child
    (stored : Int32)
    (rest : List UInt8) :
    Layout.child.run (bytes32 stored.toUInt32 ++ rest) =
      some (child stored, rest) := by
  simp [Layout.child, ofStored_eq_child]

@[simp] theorem outcome_contents
    (word : UInt32) :
    (Layout.contents word).outcome = .ok (contents word) := by
  rw [contents, ← Contents.all_bits]
  unfold Layout.contents
  split <;> rfl

/-- A number that is not negative can name a record. -/
theorem outcome_reference
    {kind : Reference}
    {stored : Int}
    (nonnegative : 0 ≤ stored) :
    (Layout.reference kind stored).outcome = .ok stored.toNat := by
  simp [Layout.reference, Reading.outcome_require, nonnegative]

/-- The record that is made of a stored surface. -/
def Surface.asRead
    (stored : Surface) : LevelCollision.Surface where
  name := Lossy.decodeToZero stored.name.toList
  flags := stored.flags.toInt
  value := stored.value.toInt

theorem Surface.standsFor_asRead
    (stored : Surface) :
    stored.StandsFor stored.asRead where
  name := Lossy.reads_decode _
  flags := rfl
  value := rfl

/-- A stored surface stands for one record. -/
theorem Surface.StandsFor.unique
    {stored : Surface}
    {surface other : LevelCollision.Surface}
    (standsFor : stored.StandsFor surface)
    (otherStandsFor : stored.StandsFor other) :
    surface = other := by
  obtain ⟨name, flags, value⟩ := surface
  obtain ⟨otherName, otherFlags, otherValue⟩ := other
  obtain ⟨reads, rfl, rfl⟩ := standsFor
  obtain ⟨otherReads, rfl, rfl⟩ := otherStandsFor
  obtain rfl := String.toList_inj.mp (reads.unique otherReads)
  rfl

theorem Surface.read
    {surface : Surface}
    {bytes : List UInt8}
    (encoded : surface.Encodes bytes) :
    (Reading.ofFields Layout.surface bytes).flatten.outcome =
      .ok surface.asRead := by
  obtain ⟨axes, next, axesLength, nextLength, rfl⟩ := encoded
  obtain ⟨number, runNext⟩ := Fields.run_integer32_of_length nextLength []
  rw [List.append_nil] at runNext
  simp [Reading.ofFields, Layout.surface, Fields.run_skip axesLength,
    Fields.run_take surface.name.length_toList, runNext, asRead]

/-- A number that is not negative stands for itself. -/
theorem optional_of_nonneg
    {stored : Int}
    (nonnegative : 0 ≤ stored) :
    optional stored = some stored.toNat := by
  obtain ⟨number, rfl⟩ := Int.eq_ofNat_of_zero_le nonnegative
  rfl

/-- A negative number stands for nothing. -/
theorem optional_of_neg
    {stored : Int}
    (negative : stored < 0) :
    optional stored = none := by
  obtain ⟨distance, rfl⟩ := Int.eq_negSucc_of_lt_zero negative
  rfl

theorem Leaf.read
    {leaf : Leaf}
    {bytes : List UInt8}
    (encoded : leaf.Encodes bytes)
    (readable : leaf.Readable) :
    (Reading.ofFields Layout.leaf bytes).flatten.outcome =
      .ok leaf.meaning := by
  obtain ⟨bounds, boundsLength, rfl⟩ := encoded
  obtain ⟨cluster, area⟩ := readable
  by_cases absent : leaf.cluster.toInt = -1
  · have noCluster : optional (-1) = none :=
      rfl
    simp [Reading.ofFields, Layout.leaf, Fields.run_skip boundsLength, absent,
      outcome_reference area, meaning, noCluster]
  · have present : 0 ≤ leaf.cluster.toInt := by
      omega
    simp [Reading.ofFields, Layout.leaf, Fields.run_skip boundsLength, absent,
      outcome_reference present, outcome_reference area, meaning,
      optional_of_nonneg present]

theorem LeafBrush.read
    {brush : UInt16}
    {bytes : List UInt8}
    (encoded : LeafBrush.Encodes brush bytes) :
    (Reading.ofFields Layout.leafBrush bytes).flatten.outcome =
      .ok brush.toNat := by
  rw [encoded]
  simp [Reading.ofFields, Layout.leafBrush]

theorem Plane.read
    {plane : Plane}
    {bytes : List UInt8}
    (encoded : plane.Encodes bytes)
    (position : Nat) :
    (Reading.ofFields (Layout.plane position) bytes).flatten.outcome =
      .ok plane.meaning := by
  obtain ⟨number, shape, rfl⟩ := encoded
  simp only [Reading.ofFields, Layout.plane, List.append_assoc,
    StateT.run_bind, run_vector, Fields.run_scalar, Fields.run_integer32_last,
    shape, PlaneKind.ofNumber?_number, Option.bind_eq_bind, Option.bind_some,
    StateT.run_pure, Option.pure_def, Reading.outcome_flatten,
    Reading.outcome_value, ok_bind]
  rfl

theorem Brush.read
    {brush : Brush}
    {bytes : List UInt8}
    (encoded : brush.Encodes bytes)
    (readable : brush.Readable) :
    (Reading.ofFields Layout.brush bytes).flatten.outcome =
      .ok brush.meaning := by
  obtain ⟨first, count⟩ := readable
  rw [encoded]
  simp [Reading.ofFields, Layout.brush, outcome_reference first,
    outcome_reference count, meaning]

theorem BrushSide.read
    {side : BrushSide}
    {bytes : List UInt8}
    {surfaceCount : Nat}
    (encoded : side.Encodes bytes)
    (readable : side.Readable surfaceCount) :
    (Reading.ofFields (Layout.brushSide surfaceCount) bytes).flatten.outcome =
      .ok side.meaning := by
  rw [encoded]
  by_cases absent : side.surface.toInt < 0
  · simp [Reading.ofFields, Layout.brushSide, absent, meaning,
      optional_of_neg absent]
  · have present : 0 ≤ side.surface.toInt := by
      omega
    have inRange : side.surface.toNatClampNeg < surfaceCount := by
      have bound : side.surface.toInt < surfaceCount := readable
      rw [← Int16.toNat_toInt]
      omega
    simp [Reading.ofFields, Layout.brushSide, absent, Reading.outcome_require,
      inRange, meaning, optional_of_nonneg present]

theorem Model.read
    {model : Model}
    {bytes : List UInt8}
    (encoded : model.Encodes bytes) :
    (Reading.ofFields Layout.model bytes).flatten.outcome =
      .ok model.meaning := by
  obtain ⟨faces, facesLength, rfl⟩ := encoded
  have runFaces := Fields.run_skip facesLength []
  rw [List.append_nil] at runFaces
  simp [Reading.ofFields, Layout.model, runFaces, meaning]
  rfl

theorem Node.read
    {node : Node}
    {bytes : List UInt8}
    (encoded : node.Encodes bytes)
    (readable : node.Readable) :
    (Reading.ofFields Layout.node bytes).flatten.outcome =
      .ok node.meaning := by
  obtain ⟨bounds, boundsLength, rfl⟩ := encoded
  have runBounds := Fields.run_skip boundsLength []
  rw [List.append_nil] at runBounds
  simp [Reading.ofFields, Layout.node, runBounds,
    outcome_reference readable, meaning]

theorem Area.read
    {area : Area}
    {bytes : List UInt8}
    (encoded : area.Encodes bytes)
    (readable : area.Readable) :
    (Reading.ofFields Layout.area bytes).flatten.outcome =
      .ok area.meaning := by
  obtain ⟨count, first⟩ := readable
  rw [encoded]
  simp [Reading.ofFields, Layout.area, outcome_reference first,
    outcome_reference count, meaning]

theorem AreaPortal.read
    {portal : AreaPortal}
    {bytes : List UInt8}
    (encoded : portal.Encodes bytes)
    (readable : portal.Readable) :
    (Reading.ofFields Layout.areaPortal bytes).flatten.outcome =
      .ok portal.meaning := by
  obtain ⟨number, other⟩ := readable
  rw [encoded]
  simp [Reading.ofFields, Layout.areaPortal, outcome_reference number,
    outcome_reference other, meaning]

end Stored

end LevelCollision
