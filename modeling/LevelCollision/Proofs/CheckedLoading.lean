import LevelCollision.File.Level
import LevelCollision.Proofs.CheckedReading

namespace LevelCollision

/-!
# Checked lumps

The lumps of a file are read by checked steps: the table of lumps from the first byte on,
then the records of each kind, the visibility and the entity text, each from where the
table says that its lump lies. An entry of the table is only taken when the lump lies in
the file, records are read when they fill their lump, and the rows of clusters when the
lump has room for them. So the steps mirror the reading of each lump.
-/

namespace Checked

/-- A file and where its header says that the lumps lie. -/
structure File where
  bytes : List UInt8
  spans : Array (Nat × Nat)

/-- The header, from the first byte of a file. -/
def header
    (bytes : List UInt8) : Cursor File := do
  let mark ← Cursor.read Fields.word32
  Cursor.settle (Reading.require (mark == LumpTable.ident) (.badMagic mark))
  let version ← Cursor.read Fields.integer32
  Cursor.settle
    (Reading.require (LumpTable.versions.contains version)
      (.unsupportedVersion version))
  let spans ← LumpId.all.toList.mapM (Cursor.entry bytes.length)
  return { bytes := bytes, spans := spans.toArray }

def file
    (bytes : List UInt8) : Checked File := do
  ofOutcome
    (Reading.require (decide (LumpTable.headerSize ≤ bytes.length))
      (.lumpOutOfBounds .entities 0 LumpTable.headerSize
        bytes.length)).outcome
  (header bytes).run' bytes

namespace File

variable {α : Type}

def size
    (file : File)
    (id : LumpId) : Checked Nat := do
  let span ← ofAnswer (lookup file.spans id.index)
  return span.2

def lump
    (file : File)
    (id : LumpId) : Checked (List UInt8) := do
  let span ← ofAnswer (lookup file.spans id.index)
  window file.bytes span.1 span.2

def records
    (file : File)
    (kind : RecordKind)
    (each : Nat → Cursor α) : Checked (Array α) := do
  let size ← file.size kind.lump
  ofOutcome
    (Reading.require (size % kind.size == 0)
      (.badLumpSize kind.lump size kind.size)).outcome
  let count := size / kind.size
  ofOutcome
    (Reading.require (decide (count ≤ kind.limit))
      (.tooMany (.records kind) count kind.limit)).outcome
  ofOutcome
    (Reading.require (!kind.required || decide (0 < count))
      (.missing kind)).outcome
  let bytes ← file.lump kind.lump
  (Cursor.recordsOnto each count #[]).run' bytes

def allRecords
    (file : File) : Checked (Records Float32) := do
  let surfaces ← file.records .surface fun _ => Cursor.surface
  let leaves ← file.records .leaf fun _ => Cursor.record Layout.leaf
  let leafBrushes ←
    file.records .leafBrush fun _ => Cursor.record Layout.leafBrush
  let planes ← file.records .plane fun id => Cursor.record (Layout.plane id)
  let brushes ← file.records .brush fun _ => Cursor.record Layout.brush
  let brushSides ←
    file.records .brushSide fun _ =>
      Cursor.record (Layout.brushSide surfaces.size)
  let models ← file.records .model fun _ => Cursor.model
  let nodes ← file.records .node fun _ => Cursor.node
  let areas ← file.records .area fun _ => Cursor.record Layout.area
  let areaPortals ←
    file.records .areaPortal fun _ => Cursor.record Layout.areaPortal
  return {
    planes := planes
    nodes := nodes
    leaves := leaves
    leafBrushes := leafBrushes
    brushes := brushes
    brushSides := brushSides
    surfaces := surfaces
    models := models
    areas := if areas.isEmpty then #[{ portals := ⟨0, 0⟩ }] else areas
    areaPortals := areaPortals }

end File

/-- The rows of clusters, from the first byte of their lump. -/
def visibilityCursor
    (bytes : List UInt8) : Cursor VisibilityTable := do
  let count ← Cursor.read Fields.integer32
  if count < 0 then
    Cursor.settle (Layout.flawed (.negativeClusterCount count))
  else
    let offsetsSize ← times count.toNat Layout.rowOffsetsSize
    let needed ← plus Layout.clusterCountSize offsetsSize
    if bytes.length < needed then
      Cursor.settle
        (Layout.flawed (.clustersDoNotFit count.toNat bytes.length))
    else
      let offsets ←
        Cursor.recordsOnto
          (fun cluster =>
            Cursor.record (Layout.rowOffsets bytes.length cluster))
          count.toNat #[]
      return { bytes := bytes, offsets := offsets }

def File.visibility
    (file : File) : Checked (Option VisibilityTable) := do
  let bytes ← file.lump .visibility
  ofOutcome
    (Reading.require (decide (bytes.length ≤ visibilityLimit))
      (.tooMany .visibilityBytes bytes.length visibilityLimit)).outcome
  if bytes.length = 0 then
    return none
  else if bytes.length < Layout.clusterCountSize then
    throw (.refused (.badVisibility (.tooSmall bytes.length)))
  else
    let table ← (visibilityCursor bytes).run' bytes
    return some table

def File.entityBytes
    (file : File) : Checked (List UInt8) := do
  let bytes ← file.lump .entities
  ofOutcome
    (Reading.require (decide (bytes.length ≤ entityTextLimit))
      (.tooMany .entityTextBytes bytes.length entityTextLimit)).outcome
  return bytes

/-- A file has the lumps of a table, and they lie inside it. -/
structure File.Tells
    (file : File)
    (table : LumpTable) : Prop where
  bytes :
    file.bytes = table.bytes
  spans :
    file.spans = table.spans.toArray
  inside :
    ∀ span ∈ table.spans, LumpTable.Inside table.bytes.length span

namespace File.Tells

variable {file : File} {table : LumpTable}

theorem lookup_span
    (tells : file.Tells table)
    (id : LumpId) :
    lookup file.spans id.index = .ok (table.spans.get id.index) := by
  have inRange : id.index < file.spans.size := by
    rw [tells.spans, table.spans.size_toArray]
    exact id.index.isLt
  rw [lookup_of_lt inRange]
  simp only [tells.spans]
  rfl

theorem size_eq
    (tells : file.Tells table)
    (id : LumpId) :
    file.size id = .ok (table.size id) := by
  rw [File.size, tells.lookup_span id]
  rfl

/-- A lump is a run of bytes that lies in the file. -/
theorem lump_eq
    (tells : file.Tells table)
    (id : LumpId) :
    file.lump id = .ok (table.lump id) ∧
      (table.lump id).length = table.size id := by
  have member : table.spans.get id.index ∈ table.spans :=
    Vector.getElem_mem id.index.isLt
  have lump :
      table.lump id =
        (table.bytes.drop (table.spans.get id.index).1).take
          (table.spans.get id.index).2 :=
    rfl
  rw [LumpTable.size, lump, File.lump, tells.lookup_span id]
  generalize table.spans.get id.index = span at member ⊢
  obtain ⟨inside, offsetBelow, sizeBelow⟩ := tells.inside span member
  constructor
  · change window file.bytes span.1 span.2 = _
    rw [tells.bytes, window_of_le (by omega) inside]
  · rw [List.length_take, List.length_drop]
    omega

end File.Tells

/-- A condition that is not met refuses the file in both. -/
theorem mirrors_require
    {condition : Bool}
    {error : LevelError}
    (readable : ∀ cause, error ≠ .unreadable cause) :
    Mirrors (fun _ _ => condition = true)
      (ofOutcome (Reading.require condition error).outcome)
      (Reading.require condition error).outcome :=
  (Mirrors.ofEnds (.require readable)).mono fun _ _ same => same.2

/-- These spans were read, and all of them lie in a file of this size. -/
def SpansRead
    (fileSize : Nat)
    (read : List (Nat × Nat))
    (spans : Array (Nat × Nat)) : Prop :=
  read = spans.toList ∧ ∀ span ∈ spans, LumpTable.Inside fileSize span

theorem SpansRead.cons
    {fileSize : Nat}
    {read spans : List (Nat × Nat)}
    {span : Nat × Nat}
    (inside : LumpTable.Inside fileSize span)
    (others : SpansRead fileSize read spans.toArray) :
    SpansRead fileSize (span :: read) (span :: spans).toArray := by
  obtain ⟨rfl, allInside⟩ := others
  refine ⟨rfl, ?_⟩
  intro other member
  rcases List.mem_cons.mp (List.mem_toArray.mp member) with rfl | inRest
  · exact inside
  · exact allInside other (List.mem_toArray.mpr inRest)

/-- The next entry follows the last one. -/
theorem drop_entry
    (bytes : List UInt8)
    (position : Nat) :
    (bytes.drop
        (LumpTable.markSize + position * LumpTable.entrySize)).drop
        LumpTable.entrySize =
      bytes.drop
        (LumpTable.markSize + (position + 1) * LumpTable.entrySize) := by
  rw [List.drop_drop, Nat.add_assoc, Nat.succ_mul]

/-- Entries of the table are read one after the other. -/
theorem mirrors_entries
    {bytes : List UInt8}
    {ids : List LumpId}
    {position : Nat}
    (places : ids.map (·.index.val) = List.range' position ids.length)
    (enough :
      LumpTable.markSize + (position + ids.length) * LumpTable.entrySize ≤
        bytes.length) :
    Mirrors
      (fun after spans => SpansRead bytes.length after.1 spans.toArray)
      ((ids.mapM (Cursor.entry bytes.length)).run
        (bytes.drop
          (LumpTable.markSize + position * LumpTable.entrySize)))
      (ids.mapM fun id =>
        (Reading.ofFields (LumpTable.entry bytes.length id)
          (LumpTable.entryBytes bytes id)).flatten).outcome := by
  induction ids generalizing position with
  | nil =>
      exact .value ⟨rfl, by simp⟩
  | cons id rest inductionHypothesis =>
      rw [List.map_cons, List.length_cons, List.range'_succ,
        List.cons.injEq] at places
      obtain ⟨isHere, restPlaces⟩ := places
      have entrySize : LumpTable.entrySize = 8 := rfl
      rw [List.length_cons, entrySize] at enough
      have enoughHere :
          LumpTable.entrySize ≤
            (bytes.drop
              (LumpTable.markSize +
                position * LumpTable.entrySize)).length := by
        rw [List.length_drop, entrySize]
        omega
      have enoughLater :
          LumpTable.markSize +
              (position + 1 + rest.length) * LumpTable.entrySize ≤
            bytes.length := by
        rw [entrySize]
        omega
      have first :=
        Cursor.mirrors_record (LumpTable.reads_entry bytes.length id) enoughHere
      rw [drop_entry] at first
      rw [List.mapM_cons, List.mapM_cons, Reading.outcome_bind,
        Cursor.entry_eq, LumpTable.entryBytes, isHere]
      refine Cursor.mirrors_bind first fun span inside => ?_
      rw [StateT.run_bind, Reading.outcome_bind]
      exact
        (inductionHypothesis restPlaces enoughLater).bind
          fun _ _ others => .value (others.cons inside)

theorem mirrors_spans
    {bytes : List UInt8}
    (enough : LumpTable.headerSize ≤ bytes.length) :
    Mirrors
      (fun after spans => SpansRead bytes.length after.1 spans.toArray)
      ((LumpId.all.toList.mapM (Cursor.entry bytes.length)).run
        (bytes.drop LumpTable.markSize))
      (LumpId.all.mapM fun id =>
        (Reading.ofFields (LumpTable.entry bytes.length id)
          (LumpTable.entryBytes bytes id)).flatten).outcome := by
  have places :
      LumpId.all.toList.map (·.index.val) =
        List.range' 0 LumpId.all.toList.length := by
    decide
  have asList {each : LumpId → Reading (Nat × Nat)} :
      ((LumpId.all.mapM each).outcome >>= fun spans => .ok spans.toArray) =
        (LumpId.all.toList.mapM each).outcome >>=
          fun spans => .ok spans.toArray := by
    rw [← Reading.outcome_map, Vector.toArray_mapM,
      Array.mapM_eq_mapM_toList, Reading.outcome_map]
    rfl
  exact
    (mirrors_entries places enough).congr
      (fun (after : List (Nat × Nat) × List UInt8) =>
        SpansRead bytes.length after.1)
      asList

theorem mirrors_file
    (bytes : List UInt8) :
    Mirrors File.Tells (file bytes) (LumpTable.read bytes).outcome := by
  unfold file LumpTable.read
  simp only [Reading.outcome_bind]
  refine (mirrors_require (by simp)).bind fun _ _ enough => ?_
  rw [decide_eq_true_eq] at enough
  have headerSize : LumpTable.headerSize = 160 := rfl
  have enoughBehind : 4 ≤ (bytes.drop 4).length := by
    rw [List.length_drop]
    omega
  refine Cursor.mirrors_run' ?_
  refine
    Cursor.mirrors_bind (Cursor.mirrors_read Fields.reads_word32 (by omega))
      fun mark _ => ?_
  refine
    Cursor.mirrors_bind (Cursor.mirrors_settle (.require (by simp)))
      fun _ _ => ?_
  refine
    Cursor.mirrors_bind
      (Cursor.mirrors_read Fields.reads_integer32 enoughBehind)
      fun version _ => ?_
  refine
    Cursor.mirrors_bind (Cursor.mirrors_settle (.require (by simp)))
      fun _ _ => ?_
  rw [StateT.run_bind, List.drop_drop]
  refine (mirrors_spans enough).bind fun after spans same => .value ?_
  obtain ⟨values, allInside⟩ := same
  have insideFile (span : Nat × Nat) :
      span ∈ spans → LumpTable.Inside bytes.length span := by
    intro member
    exact allInside span ((Vector.mem_toArray_iff span spans).mpr member)
  have sameSpans : after.1.toArray = spans.toArray := by
    rw [values, Array.toArray_toList]
  exact ⟨rfl, sameSpans, insideFile⟩

section Lumps

variable {α : Type} {file : File} {table : LumpTable}

/-- Records that fill their lump are read from where the lump is said to lie. -/
theorem mirrors_kind
    {holds : α → Prop}
    {kind : RecordKind}
    {layout : Nat → Fields (Reading α)}
    {each : Nat → Cursor α}
    (tells : file.Tells table)
    (isRecord : ∀ position, each position = Cursor.record (layout position))
    (reads :
      ∀ position,
        (layout position).Reads kind.size (Reading.Ends holds)) :
    Mirrors
      (fun checked entries =>
        checked = entries ∧ ∀ entry ∈ entries, holds entry)
      (file.records kind each) (table.records kind layout).outcome := by
  obtain ⟨lump, length⟩ := tells.lump_eq kind.lump
  unfold File.records LumpTable.records
  simp only [Reading.outcome_bind]
  rw [tells.size_eq, ok_bind]
  refine (mirrors_require (by simp)).bind fun _ _ divides => ?_
  refine (mirrors_require (by simp)).bind fun _ _ _ => ?_
  refine (mirrors_require (by simp)).bind fun _ _ _ => ?_
  have fills :
      table.size kind.lump / kind.size * kind.size =
        (table.lump kind.lump).length := by
    rw [length]
    exact Nat.div_mul_cancel (Nat.dvd_of_mod_eq_zero (beq_iff_eq.mp divides))
  rw [lump, ok_bind]
  refine
    (Cursor.mirrors_records isRecord reads (Nat.le_of_eq fills)).mono ?_
  intro checked entries same
  exact ⟨same.1, same.2.2⟩

/-- What can be said of records before they are checked together. -/
structure Telling
    (own : Records Float32) : Prop where
  leaves :
    ∀ leaf ∈ own.leaves, Layout.SmallSpan leaf.brushes
  brushes :
    ∀ brush ∈ own.brushes, Layout.SmallSpan brush.sides
  areas :
    ∀ area ∈ own.areas, Layout.SmallSpan area.portals

theorem mirrors_allRecords
    (tells : file.Tells table) :
    Mirrors (fun checked own => checked = own ∧ Telling own)
      file.allRecords table.allRecords.outcome := by
  unfold File.allRecords LumpTable.allRecords LumpTable.areas
  simp only [Reading.outcome_bind, bind_assoc]
  refine
    (mirrors_kind tells (fun _ => Cursor.surface_eq)
      (fun _ => Layout.reads_surface)).andThen fun surfaces _ => ?_
  refine
    (mirrors_kind tells (fun _ => rfl) (fun _ => Layout.reads_leaf)).andThen
      fun leaves smallLeaves => ?_
  refine
    (mirrors_kind tells (fun _ => rfl) (fun _ => Layout.reads_leafBrush)).andThen
      fun leafBrushes _ => ?_
  refine
    (mirrors_kind tells (fun _ => rfl) Layout.reads_plane).andThen
      fun planes _ => ?_
  refine
    (mirrors_kind tells (fun _ => rfl) (fun _ => Layout.reads_brush)).andThen
      fun brushes smallBrushes => ?_
  refine
    (mirrors_kind tells (fun _ => rfl)
      (fun _ => Layout.reads_brushSide surfaces.size)).andThen fun brushSides _ => ?_
  refine
    (mirrors_kind tells (fun _ => Cursor.model_eq)
      (fun _ => Layout.reads_model)).andThen fun models _ => ?_
  refine
    (mirrors_kind tells (fun _ => Cursor.node_eq) (fun _ => Layout.reads_node)).andThen
      fun nodes _ => ?_
  refine
    (mirrors_kind tells (fun _ => rfl) (fun _ => Layout.reads_area)).andThen
      fun areas smallAreas => ?_
  rw [Reading.outcome_pure, ok_bind]
  refine
    (mirrors_kind tells (fun _ => rfl) (fun _ => Layout.reads_areaPortal)).andThen
      fun areaPortals _ => ?_
  refine .value ⟨rfl, smallLeaves, smallBrushes, ?_⟩
  change
    ∀ area ∈ if areas.isEmpty then #[{ portals := ⟨0, 0⟩ }] else areas,
      Layout.SmallSpan area.portals
  split
  · intro area member
    rw [Array.mem_singleton.mp member]
    exact Layout.smallSpan_of_lt (by decide) (by decide)
  · exact smallAreas

/-- The rows are read on from the number of clusters, in a lump that has room for them. -/
theorem mirrors_visibilityCursor
    {bytes : List UInt8}
    (enough : ¬bytes.length < Layout.clusterCountSize) :
    Mirrors (· = ·) ((visibilityCursor bytes).run' bytes)
      (Layout.visibilityTable bytes).outcome := by
  have enoughCount : Layout.clusterCountSize ≤ bytes.length :=
    Nat.le_of_not_lt enough
  unfold visibilityCursor Layout.visibilityTable
  rw [if_neg enough, Reading.outcome_bind]
  refine
    Cursor.mirrors_run'
      (Cursor.mirrors_bind
        (Cursor.mirrors_read Fields.reads_integer32 enoughCount)
        fun count bounds => ?_)
  by_cases negative : count < 0
  · rw [if_pos negative, if_pos negative]
    exact .refusal (by simp)
  rw [if_neg negative, if_neg negative]
  have rowOffsetsSize : Layout.rowOffsetsSize = 8 := rfl
  have clusterCountSize : Layout.clusterCountSize = 4 := rfl
  have small : count.toNat < 2 ^ 31 := by
    omega
  dsimp only
  generalize count.toNat = clusters at small ⊢
  have fits : clusters * Layout.rowOffsetsSize < 2 ^ 34 := by
    rw [rowOffsetsSize]
    omega
  rw [times, word_of_lt (by omega), Cursor.lift_ok_bind, plus,
    word_of_lt (by omega), Cursor.lift_ok_bind]
  by_cases tooMany :
      bytes.length <
        Layout.clusterCountSize + clusters * Layout.rowOffsetsSize
  · rw [if_pos tooMany, if_pos tooMany]
    exact .refusal (by simp)
  rw [if_neg tooMany, if_neg tooMany, Reading.outcome_bind]
  have room :
      clusters * Layout.rowOffsetsSize ≤
        (bytes.drop Layout.clusterCountSize).length := by
    rw [List.length_drop]
    omega
  have noneYet : ∀ offsets ∈ (#[] : Array RowOffsets), True := by
    simp
  exact
    Cursor.mirrors_bind
      (Cursor.mirrors_recordsOnto (fun _ => rfl)
        (Layout.reads_rowOffsets bytes.length) room noneYet #[])
      fun _ _ => .value rfl

theorem mirrors_visibility
    (tells : file.Tells table) :
    Mirrors (· = ·) file.visibility table.visibility.outcome := by
  obtain ⟨lump, length⟩ := tells.lump_eq .visibility
  unfold File.visibility LumpTable.visibility
  rw [lump, ok_bind, length, Reading.outcome_bind]
  refine (mirrors_require (by simp)).bind fun _ _ _ => ?_
  by_cases isEmpty : table.size .visibility = 0
  · rw [if_pos isEmpty, if_pos isEmpty]
    exact .value rfl
  rw [if_neg isEmpty, if_neg isEmpty, Reading.outcome_bind]
  by_cases tooSmall : table.size .visibility < Layout.clusterCountSize
  · rw [if_pos tooSmall, Layout.visibilityTable, length, if_pos tooSmall]
    exact .refusal (by simp)
  rw [if_neg tooSmall]
  rw [← length] at tooSmall
  refine (mirrors_visibilityCursor tooSmall).bind fun _ rows same => ?_
  rw [same]
  exact .value rfl

theorem mirrors_entityBytes
    (tells : file.Tells table) :
    Mirrors (· = ·) file.entityBytes table.entityBytes.outcome := by
  obtain ⟨lump, length⟩ := tells.lump_eq .entities
  unfold File.entityBytes LumpTable.entityBytes
  rw [lump, ok_bind, length, Reading.outcome_bind]
  exact (mirrors_require (by simp)).bind fun _ _ _ => .value rfl

end Lumps

end Checked

end LevelCollision
