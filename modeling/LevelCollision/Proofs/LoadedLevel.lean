import LevelCollision.Proofs.HullRecords
import LevelCollision.Proofs.LevelReading
import LevelCollision.Proofs.PackedLevel

namespace LevelCollision

/-!
# What holds of every level that was read

Whatever the bytes of a file are, a level that is read from them is closed: no
number in its records, or in those of the box hull behind them, names a record that
does not exist. Its tree does not lead into the hull, the hull leaves its chain only
for an empty leaf of the level, and all arrays keep to their limits.
-/

namespace Records

variable {S : Type}

/-- Number of records of a kind. -/
def count
    (records : Records S) : RecordKind → Nat
  | .surface => records.surfaces.size
  | .leaf => records.leaves.size
  | .leafBrush => records.leafBrushes.size
  | .plane => records.planes.size
  | .brush => records.brushes.size
  | .brushSide => records.brushSides.size
  | .model => records.models.size
  | .node => records.nodes.size
  | .area => records.areas.size
  | .areaPortal => records.areaPortals.size

/-- Records that leave room for a hull keep to the limits with it. -/
theorem count_withBoxHull_le
    [Scalar S]
    {own : Records S}
    {emptyLeaf : Nat}
    {bounds : Box S}
    (fits : BoxHull.fits own = true)
    (within : ∀ kind, own.count kind ≤ kind.limit)
    (kind : RecordKind) :
    (own.withBoxHull emptyLeaf bounds).count kind ≤ kind.limit := by
  simp only [BoxHull.fits, Bool.and_eq_true, decide_eq_true_eq] at fits
  obtain ⟨⟨⟨⟨⟨nodes, planes⟩, brushSides⟩, brushes⟩, leaves⟩, leafBrushes⟩ :=
    fits
  cases kind with
  | surface =>
      simpa [count] using within .surface
  | leaf =>
      simpa [count] using Nat.succ_le_of_lt leaves
  | leafBrush =>
      simpa [count] using Nat.succ_le_of_lt leafBrushes
  | plane =>
      simpa [count] using planes
  | brush =>
      simpa [count] using Nat.succ_le_of_lt brushes
  | brushSide =>
      simpa [count] using brushSides
  | model =>
      simpa [count] using within .model
  | node =>
      simpa [count] using nodes
  | area =>
      simpa [count] using within .area
  | areaPortal =>
      simpa [count] using within .areaPortal

end Records

namespace LumpTable

variable {table : LumpTable}

theorem size_le_limit
    {α : Type}
    {kind : RecordKind}
    {record : Nat → Fields (Reading α)}
    {entries : Array α}
    (read : (table.records kind record).outcome = .ok entries) :
    entries.size ≤ kind.limit :=
  (outcome_records_eq_ok_iff.mp read).2.1

theorem areas_nonempty
    {areas : Array Area}
    (read : table.areas.outcome = .ok areas) :
    0 < areas.size := by
  obtain ⟨stored, _, rfl⟩ := outcome_areas_eq_ok_iff.mp read
  split
  · exact Nat.one_pos
  · rename_i present
    exact Array.size_pos_iff.mpr fun empty => present (by simp [empty])

theorem areas_size_le_limit
    {areas : Array Area}
    (read : table.areas.outcome = .ok areas) :
    areas.size ≤ RecordKind.area.limit := by
  obtain ⟨stored, readStored, rfl⟩ := outcome_areas_eq_ok_iff.mp read
  split
  · decide
  · exact size_le_limit readStored

/-- Brush sides that were read have surfaces that were read. -/
theorem sideSurface_lt
    {surfaceCount : Nat}
    {sides : Array BrushSide}
    (read :
      (table.records .brushSide fun _ =>
          Layout.brushSide surfaceCount).outcome =
        .ok sides)
    {side : BrushSide}
    (member : side ∈ sides)
    {surface : Nat}
    (has : surface ∈ side.surface) :
    surface < surfaceCount := by
  obtain ⟨-, -, -, readAs⟩ := outcome_records_eq_ok_iff.mp read
  obtain ⟨_, _, readSide⟩ := readAs.source (Array.mem_toList_iff.mpr member)
  exact Layout.surface_lt_of_brushSide readSide has

/-- The records of a file keep to their limits. -/
theorem count_le_limit
    {own : Records Float32}
    (read : table.allRecords.outcome = .ok own)
    (kind : RecordKind) :
    own.count kind ≤ kind.limit := by
  obtain ⟨surfaces, leaves, leafBrushes, planes, brushes, brushSides, models,
    nodes, areas, areaPortals⟩ := outcome_allRecords_eq_ok_iff.mp read
  cases kind with
  | surface =>
      exact size_le_limit surfaces
  | leaf =>
      exact size_le_limit leaves
  | leafBrush =>
      exact size_le_limit leafBrushes
  | plane =>
      exact size_le_limit planes
  | brush =>
      exact size_le_limit brushes
  | brushSide =>
      exact size_le_limit brushSides
  | model =>
      exact size_le_limit models
  | node =>
      exact size_le_limit nodes
  | area =>
      exact areas_size_le_limit areas
  | areaPortal =>
      exact size_le_limit areaPortals

end LumpTable

namespace Level

variable {bytes : List UInt8} {level : Level Float32}

/-- The own records of a level that was read are closed. -/
theorem own_closed_of_read
    (accepted : (read bytes).outcome = .ok level) :
    level.own.Closed level.clusterCount := by
  obtain ⟨table, _, readRecords, _, _, made⟩ := outcome_read_eq_ok_iff.mp accepted
  obtain ⟨noViolation, _, _, _, _, _, clusters, _, _⟩ :=
    ofRecords_eq_ok_iff.mp made
  obtain ⟨_, _, _, _, _, readSides, _, _, _, _⟩ :=
    LumpTable.outcome_allRecords_eq_ok_iff.mp readRecords
  rw [clusters]
  refine Records.closed_iff.mpr ⟨noViolation, ?_⟩
  intro side member surface has
  exact LumpTable.sideSurface_lt readSides member has

/-- A level that was read has an area. -/
theorem areas_nonempty_of_read
    (accepted : (read bytes).outcome = .ok level) :
    0 < level.own.areas.size := by
  obtain ⟨table, _, readRecords, _, _, _⟩ := outcome_read_eq_ok_iff.mp accepted
  obtain ⟨_, _, _, _, _, _, _, _, readAreas, _⟩ :=
    LumpTable.outcome_allRecords_eq_ok_iff.mp readRecords
  exact LumpTable.areas_nonempty readAreas

/-- The leaf outside the hulls of a level that was read is empty, and not the first. -/
theorem emptyLeaf_of_read
    (accepted : (read bytes).outcome = .ok level) :
    0 < level.emptyLeaf ∧
      ∃ leaf,
        level.own.leaves[level.emptyLeaf]? = some leaf ∧
          leaf.contents = .empty := by
  obtain ⟨table, _, _, _, _, made⟩ := outcome_read_eq_ok_iff.mp accepted
  obtain ⟨_, _, empty, _, _, _, _, _, _⟩ := ofRecords_eq_ok_iff.mp made
  obtain ⟨positive, isEmpty, _⟩ := Records.emptyLeaf?_eq_some_iff.mp empty
  exact ⟨positive, isEmpty⟩

theorem emptyLeaf_lt_of_read
    (accepted : (read bytes).outcome = .ok level) :
    level.emptyLeaf < level.own.leaves.size := by
  obtain ⟨_, leaf, found, _⟩ := emptyLeaf_of_read accepted
  exact (Array.getElem?_eq_some_iff.mp found).1

/-- The first leaf of a level that was read is solid. -/
theorem outside_of_read
    (accepted : (read bytes).outcome = .ok level) :
    ∃ leaf,
      level.own.leaves[0]? = some leaf ∧ leaf.contents = .solid := by
  obtain ⟨table, _, _, _, _, made⟩ := outcome_read_eq_ok_iff.mp accepted
  obtain ⟨_, solid, _, _, _, _, _, _, _⟩ := ofRecords_eq_ok_iff.mp made
  exact Records.outsideIsSolid_iff.mp solid

/-- All records of a level that was read are closed, those of the hull among them. -/
theorem full_closed_of_read
    (accepted : (read bytes).outcome = .ok level) :
    level.full.Closed level.clusterCount := by
  rw [level.full_eq]
  exact
    (own_closed_of_read accepted).withBoxHull
      (areas_nonempty_of_read accepted) (emptyLeaf_lt_of_read accepted)

/-- The arrays of a level that was read keep to their limits. -/
theorem count_le_limit_of_read
    (accepted : (read bytes).outcome = .ok level)
    (kind : RecordKind) :
    level.full.count kind ≤ kind.limit := by
  obtain ⟨table, _, readRecords, _, _, made⟩ := outcome_read_eq_ok_iff.mp accepted
  obtain ⟨_, _, _, fits, _, _, _, _, _⟩ := ofRecords_eq_ok_iff.mp made
  rw [level.full_eq]
  exact
    Records.count_withBoxHull_le fits
      (LumpTable.count_le_limit readRecords) kind

/--
A level is intact when its records, with and without those of its box hull, name only
records that exist, its own tree does not lead into the hull, the hull is a chain
that is left for an empty leaf, and all arrays keep to their limits.
-/
structure Intact
    (level : Level Float32) : Prop where
  /-- Own nodes and models name own nodes and leaves. -/
  ownClosed : level.own.Closed level.clusterCount
  fullClosed : level.full.Closed level.clusterCount
  hull : BoxHull.Chain level.full level.own level.emptyLeaf
  emptyLeaf :
    0 < level.emptyLeaf ∧
      ∃ leaf,
        level.own.leaves[level.emptyLeaf]? = some leaf ∧
          leaf.contents = .empty
  outside :
    ∃ leaf,
      level.own.leaves[0]? = some leaf ∧ leaf.contents = .solid
  limits :
    ∀ kind, level.full.count kind ≤ kind.limit

/-- Every level that is read is intact. -/
theorem intact_of_read
    (accepted : (read bytes).outcome = .ok level) :
    level.Intact where
  ownClosed := own_closed_of_read accepted
  fullClosed := full_closed_of_read accepted
  hull := by
    rw [level.full_eq]
    exact BoxHull.chain_withBoxHull
  emptyLeaf := emptyLeaf_of_read accepted
  outside := outside_of_read accepted
  limits := count_le_limit_of_read accepted

/-- The level of two rooms and a door is read, and so it is intact. -/
theorem intact_doorway :
    ∃ level,
      (read Stored.Level.doorway.packed).outcome = .ok level ∧
        level.Intact := by
  have isRead : (read Stored.Level.doorway.packed).outcome.isOk = true := by
    decide +kernel
  cases accepted : (read Stored.Level.doorway.packed).outcome with
  | error error =>
      rw [accepted] at isRead
      cases isRead
  | ok level =>
      exact ⟨level, rfl, intact_of_read accepted⟩

end Level

end LevelCollision
