import Mathlib.Data.List.Forall2
import LevelCollision.Proofs.FloodFaults
import LevelCollision.Proofs.StoredLumps

namespace LevelCollision

/-!
# Stored levels are read back

A file of a stored level that meets the conditions of a level is read, and what is
read is what the stored level stands for. Where the lumps lie in the file, and the
bytes that have no meaning, make no difference.
-/

namespace Stored.Level

variable {level : Level} {table : LumpTable} {bytes : List UInt8}

/-- Records of a kind are read from a lump that holds them. -/
theorem Lists.records
    {α β : Type}
    {kind : RecordKind}
    {encodes : α → List UInt8 → Prop}
    {entries : List α}
    {meaning : α → β}
    {record : Nat → Fields (Reading β)}
    (lists : level.Lists table)
    (holds : InOrder encodes entries (table.lump kind.lump))
    (sized :
      ∀ {entry : α} {stretch : List UInt8},
        encodes entry stretch → stretch.length = kind.size)
    (withinLimit : entries.length ≤ kind.limit)
    (present : kind.required = true → 0 < entries.length)
    (reads :
      ∀ entry ∈ entries, ∀ stretch position,
        encodes entry stretch →
          (Reading.ofFields (record position) stretch).flatten.outcome =
            .ok (meaning entry)) :
    (table.records kind record).outcome =
      .ok (entries.map meaning).toArray := by
  rw [LumpTable.outcome_records_eq_ok_iff, List.size_toArray, List.length_map]
  refine ⟨?_, withinLimit, present, ?_⟩
  · rw [← lists.size]
    exact holds.length sized
  · have read :
        Reading.ReadAs kind.size record 0 (table.lump kind.lump ++ [])
          (entries.map meaning) :=
      holds.readAs sized reads []
    rw [List.append_nil] at read
    exact read

/-- The records that are made of a stored level. -/
def asRead
    (level : Level) : Records Float32 :=
  level.records (level.surfaces.map Surface.asRead)

theorem standsFor_asRead
    (level : Level) :
    List.Forall₂ Surface.StandsFor level.surfaces
      (level.surfaces.map Surface.asRead) := by
  rw [List.forall₂_map_right_iff, List.forall₂_same]
  exact fun stored _ => stored.standsFor_asRead

/-- As many surfaces are made as are stored. -/
@[simp] theorem size_surfaces_asRead
    (level : Level) :
    level.asRead.surfaces.size = level.surfaces.length := by
  simp [asRead, records]

theorem Loadable.closed_asRead
    (loadable : level.Loadable) :
    level.asRead.Closed level.clusterCount :=
  loadable.closed _ (List.length_map _)

/-- The surface of a side of a closed level can be read. -/
theorem Loadable.readable_of_mem
    (loadable : level.Loadable)
    {side : BrushSide}
    (member : side ∈ level.brushSides) :
    side.Readable level.surfaces.length := by
  by_cases absent : side.surface.toInt < 0
  · unfold BrushSide.Readable
    omega
  · have present : 0 ≤ side.surface.toInt := by
      omega
    have listed : side.meaning ∈ level.asRead.brushSides :=
      List.mem_toArray.mpr (List.mem_map_of_mem member)
    have inRange :=
      loadable.closed_asRead.sideSurface side.meaning listed _
        (optional_of_nonneg present)
    rw [size_surfaces_asRead] at inRange
    unfold BrushSide.Readable
    omega

theorem Lists.areas
    (lists : level.Lists table)
    (loadable : level.Loadable) :
    table.areas.outcome = .ok level.asRead.areas := by
  rw [LumpTable.outcome_areas_eq_ok_iff]
  refine ⟨(level.areas.map Area.meaning).toArray, ?_, ?_⟩
  · exact
      lists.records (lists.holds .areas) Area.length_of_encodes
        (loadable.withinLimits .area) (loadable.present .area)
        fun area member _ _ encoded =>
          Area.read encoded (loadable.areas area member)
  · cases stored : level.areas with
    | nil =>
        simp [asRead, Level.records, stored]
    | cons area rest =>
        simp [asRead, Level.records, stored]

/-- All records of a stored level are read as what they stand for. -/
theorem Lists.allRecords
    (lists : level.Lists table)
    (loadable : level.Loadable) :
    table.allRecords.outcome = .ok level.asRead := by
  rw [LumpTable.outcome_allRecords_eq_ok_iff]
  refine ⟨?_, ?_, ?_, ?_, ?_, ?_, ?_, ?_, lists.areas loadable, ?_⟩
  · exact
      lists.records (lists.holds .texInfo) Surface.length_of_encodes
        (loadable.withinLimits .surface) (loadable.present .surface)
        fun _ _ _ _ encoded => Surface.read encoded
  · exact
      lists.records (lists.holds .leaves) Leaf.length_of_encodes
        (loadable.withinLimits .leaf) (loadable.present .leaf)
        fun leaf member _ _ encoded =>
          Leaf.read encoded (loadable.leaves leaf member)
  · exact
      lists.records (lists.holds .leafBrushes) LeafBrush.length_of_encodes
        (loadable.withinLimits .leafBrush) (loadable.present .leafBrush)
        fun _ _ _ _ encoded => LeafBrush.read encoded
  · exact
      lists.records (lists.holds .planes) Plane.length_of_encodes
        (loadable.withinLimits .plane) (loadable.present .plane)
        fun _ _ _ position encoded => Plane.read encoded position
  · exact
      lists.records (lists.holds .brushes) Brush.length_of_encodes
        (loadable.withinLimits .brush) (loadable.present .brush)
        fun brush member _ _ encoded =>
          Brush.read encoded (loadable.brushes brush member)
  · exact
      lists.records (lists.holds .brushSides) BrushSide.length_of_encodes
        (loadable.withinLimits .brushSide) (loadable.present .brushSide)
        fun side member _ _ encoded => by
          rw [size_surfaces_asRead]
          exact BrushSide.read encoded (loadable.readable_of_mem member)
  · exact
      lists.records (lists.holds .models) Model.length_of_encodes
        (loadable.withinLimits .model) (loadable.present .model)
        fun _ _ _ _ encoded => Model.read encoded
  · exact
      lists.records (lists.holds .nodes) Node.length_of_encodes
        (loadable.withinLimits .node) (loadable.present .node)
        fun node member _ _ encoded =>
          Node.read encoded (loadable.nodes node member)
  · exact
      lists.records (lists.holds .areaPortals) AreaPortal.length_of_encodes
        (loadable.withinLimits .areaPortal) (loadable.present .areaPortal)
        fun portal member _ _ encoded =>
          AreaPortal.read encoded (loadable.areaPortals portal member)

theorem Lists.visibility
    (lists : level.Lists table)
    (loadable : level.Loadable) :
    table.visibility.outcome =
      .ok (level.visibility.map Visibility.table) := by
  have lump : table.lump .visibility = level.visibilityBytes :=
    lists.holds .visibility
  have size := lists.size .visibility
  rw [lump] at size
  rw [LumpTable.outcome_visibility_eq_ok_iff, ← size, lump]
  refine ⟨loadable.visibilitySize, ?_⟩
  cases stored : level.visibility with
  | none =>
      simp [visibilityBytes, stored]
  | some visibility =>
      have short := loadable.visibilitySize
      have offsets := loadable.visibilityOffsets visibility stored
      have length := visibility.length_bytes
      simp only [visibilityBytes, stored] at short ⊢
      have notEmpty : visibility.bytes.length ≠ 0 := by
        omega
      rw [if_neg notEmpty]
      exact ⟨visibility.table, Visibility.read short offsets, rfl⟩

theorem Lists.entityBytes
    (lists : level.Lists table)
    (loadable : level.Loadable) :
    table.entityBytes.outcome = .ok level.entities := by
  have lump : table.lump .entities = level.entities :=
    lists.holds .entities
  have size := lists.size .entities
  rw [LumpTable.outcome_entityBytes_eq_ok_iff, ← size, lump]
  exact ⟨loadable.entitySize, rfl⟩

theorem Loadable.exists_emptyLeaf
    (loadable : level.Loadable) :
    ∃ emptyLeaf, level.asRead.emptyLeaf? = some emptyLeaf := by
  obtain ⟨leaf, member, isEmpty⟩ := loadable.hasEmptyLeaf
  have leaves :
      level.asRead.leaves.toList.tail = level.leaves.tail.map Leaf.meaning :=
    List.map_tail.symm
  have found :
      (level.asRead.leaves.toList.tail.findIdx?
        (·.contents.isEmpty)).isSome = true := by
    rw [List.findIdx?_isSome, List.any_eq_true, leaves]
    exact
      ⟨leaf.meaning, List.mem_map_of_mem member,
        Contents.isEmpty_iff.mpr isEmpty⟩
  obtain ⟨position, shape⟩ := Option.isSome_iff_exists.mp found
  refine ⟨position + 1, ?_⟩
  rw [LevelCollision.Records.emptyLeaf?, shape]
  rfl

theorem Loadable.outsideIsSolid_asRead
    (loadable : level.Loadable) :
    level.asRead.outsideIsSolid = true := by
  obtain ⟨leaf, isFirst, isSolid⟩ := loadable.outsideIsSolid
  rw [LevelCollision.Records.outsideIsSolid_iff]
  refine ⟨leaf.meaning, ?_, isSolid⟩
  have first : level.leaves[0]? = some leaf := by
    rw [← List.head?_eq_getElem?]
    exact isFirst
  rw [asRead, records, List.getElem?_toArray, List.getElem?_map, first]
  rfl

theorem Loadable.fits_asRead
    (loadable : level.Loadable) :
    BoxHull.fits level.asRead = true := by
  obtain ⟨nodes, planes, brushSides, brushes, leaves, leafBrushes⟩ :=
    loadable.room
  simp only [BoxHull.fits, Bool.and_eq_true, decide_eq_true_eq]
  refine ⟨⟨⟨⟨⟨?_, ?_⟩, ?_⟩, ?_⟩, ?_⟩, ?_⟩
  · simpa [asRead, records, BoxHull.faceCount] using nodes
  · simpa [asRead, records, BoxHull.planeCount] using planes
  · simpa [asRead, records, BoxHull.faceCount] using brushSides
  · simpa [asRead, records] using Nat.lt_of_succ_le brushes
  · simpa [asRead, records] using Nat.lt_of_succ_le leaves
  · simpa [asRead, records] using Nat.lt_of_succ_le leafBrushes

/-- The parts of a loadable level make a level, and it holds them unchanged. -/
theorem Loadable.exists_ofRecords
    (loadable : level.Loadable)
    (fileSize : Nat) :
    ∃ loaded,
      LevelCollision.Level.ofRecords level.asRead
          (level.visibility.map Visibility.table) level.clusterCount
          level.entities fileSize =
        .ok loaded := by
  obtain ⟨emptyLeaf, found⟩ := loadable.exists_emptyLeaf
  obtain ⟨noViolation, _⟩ := Records.closed_iff.mp loadable.closed_asRead
  exact
    ⟨{ own := level.asRead
       emptyLeaf := emptyLeaf
       visibility := level.visibility.map Visibility.table
       clusterCount := level.clusterCount
       entityBytes := level.entities
       fileSize := fileSize },
      LevelCollision.Level.ofRecords_eq_ok_iff.mpr
        ⟨noViolation, loadable.outsideIsSolid_asRead, found,
          loadable.fits_asRead, rfl, rfl, rfl, rfl, rfl⟩⟩

theorem clustersOf_table
    (level : Level) :
    LevelCollision.Level.clustersOf (level.visibility.map Visibility.table)
        level.asRead.leaves.size =
      level.clusterCount := by
  unfold clusterCount LevelCollision.Level.clustersOf
  cases level.visibility with
  | none =>
      simp [asRead, records]
  | some visibility =>
      simp [Visibility.table, VisibilityTable.clusterCount]

/--
Every file of a stored level that is loadable is read, and a level is in use after
it whose records, visibility and entity text are those that the stored level stands
for. The names of its surfaces are what the stored names are read as.
-/
theorem read_of_serialises
    (loadable : level.Loadable)
    (serialises : level.Serialises bytes) :
    ∃ loaded world surfaces,
      (LevelCollision.Level.read bytes).outcome = .ok loaded ∧
        World.ofLevel loaded = .ok world ∧
        world.level = loaded ∧
        List.Forall₂ Surface.StandsFor level.surfaces surfaces ∧
        loaded.own = level.records surfaces ∧
        loaded.visibility = level.visibility.map Visibility.table ∧
        loaded.clusterCount = level.clusterCount ∧
        loaded.entityBytes = level.entities ∧
        loaded.fileSize = bytes.length := by
  obtain ⟨table, readTable, lists⟩ :=
    serialises.read_table loadable.version
  obtain ⟨loaded, made⟩ := loadable.exists_ofRecords bytes.length
  obtain ⟨_, _, _, _, own, visibility, clusters, text, fileSize⟩ :=
    LevelCollision.Level.ofRecords_eq_ok_iff.mp made
  have accepted :
      (LevelCollision.Level.read bytes).outcome = .ok loaded := by
    rw [LevelCollision.Level.outcome_read_eq_ok_iff, own, visibility, text,
      level.clustersOf_table]
    exact
      ⟨table, readTable, lists.allRecords loadable,
        lists.visibility loadable, lists.entityBytes loadable, made⟩
  have closed : loaded.own.Closed level.clusterCount := by
    rw [own]
    exact loadable.closed_asRead
  obtain ⟨world, inUse, sameLevel⟩ := World.exists_ofLevel closed
  exact
    ⟨loaded, world, _, accepted, inUse, sameLevel, level.standsFor_asRead, own,
      visibility, clusters, text, fileSize⟩

/--
The level of two leaves with a name for its surface: a word, a character of two bytes,
the first two bytes of one of three, a letter and a byte that begins no character. A
zero byte ends the name, and more letters stand behind it.
-/
def namedDoorway : Level :=
  { doorway with
    surfaces :=
      [{ flags := 1
         value := 0
         name :=
          #v[0x63, 0x61, 0x66, 0xc3, 0xa9, 0x5f, 0xe2, 0x82, 0x78, 0xff, 0,
            0x61, 0x62, 0, 0, 0, 0, 0, 0, 0, 0, 0, 0, 0, 0, 0, 0, 0, 0, 0, 0,
            0] }] }

theorem loadable_namedDoorway :
    namedDoorway.Loadable where
  version := .inl rfl
  withinLimits := by
    intro kind
    cases kind <;> decide
  present := by
    intro kind
    cases kind <;> decide
  visibilitySize := by decide
  visibilityOffsets := by
    intro visibility stored
    cases stored
  entitySize := by decide
  leaves := by decide
  brushes := by decide
  nodes := by decide
  areas := by decide
  areaPortals := by decide
  closed := by
    intro surfaces counted
    obtain ⟨surface, rfl⟩ := List.length_eq_one_iff.mp counted
    refine Records.closed_iff.mpr ⟨rfl, ?_⟩
    change
      ∀ side ∈ (doorway.records []).brushSides,
        ∀ id ∈ side.surface, id < 1
    decide
  outsideIsSolid := by decide
  hasEmptyLeaf := by decide
  room := by decide

/--
The two rooms, their door and the name are read back from the file that is written.
Each of the two broken parts of the name is one character.
-/
theorem read_namedDoorway :
    ∃ loaded world,
      (LevelCollision.Level.read namedDoorway.packed).outcome = .ok loaded ∧
        World.ofLevel loaded = .ok world ∧
        world.level = loaded ∧
        loaded.own =
          namedDoorway.records
            [{ name := "café_\uFFFDx\uFFFD", flags := 1, value := 0 }] ∧
        loaded.visibility = none ∧
        loaded.clusterCount = 2 ∧
        loaded.entityBytes = [] ∧
        loaded.fileSize = namedDoorway.packed.length := by
  obtain
    ⟨loaded, world, surfaces, read, inUse, sameLevel, standFor, own, rest⟩ :=
    read_of_serialises loadable_namedDoorway
      (serialises_packed (by decide +kernel))
  have named :
      List.Forall₂ Surface.StandsFor namedDoorway.surfaces
        [{ name := "café_\uFFFDx\uFFFD", flags := 1, value := 0 }] :=
    .cons ⟨Lossy.reads_iff.mpr (by decide +kernel), rfl, rfl⟩ .nil
  have unique : Relator.RightUnique Surface.StandsFor :=
    fun _ _ _ => Surface.StandsFor.unique
  rw [unique.forall₂ standFor named] at own
  exact ⟨loaded, world, read, inUse, sameLevel, own, rest⟩

end Stored.Level

end LevelCollision
