import LevelCollision.File.Level
import LevelCollision.Proofs.Readings

namespace LevelCollision

/-!
# What an accepted file was checked for

Reading a level takes a table of lumps, the records of ten lumps, the visibility and
the entity text, and then checks all records together. A level comes out of it
exactly when each of these steps gives its part and every check is passed.
-/

namespace LumpTable

variable {α : Type} {table : LumpTable}

/-- Records of a kind are read when their lump has a right size and reads as them. -/
theorem outcome_records_eq_ok_iff
    {kind : RecordKind}
    {record : Nat → Fields (Reading α)}
    {entries : Array α} :
    (table.records kind record).outcome = .ok entries ↔
      table.size kind.lump = kind.size * entries.size ∧
        entries.size ≤ kind.limit ∧
        (kind.required = true → 0 < entries.size) ∧
        Reading.ReadAs kind.size record 0 (table.lump kind.lump)
          entries.toList := by
  have sizePos := kind.size_pos
  simp only [records, Reading.outcome_bind, Reading.require_bind_eq_ok_iff,
    Reading.outcome_records_eq_ok_iff, beq_iff_eq, decide_eq_true_eq,
    Bool.or_eq_true, Bool.not_eq_true']
  constructor
  · rintro ⟨divides, withinLimit, present, size, read⟩
    refine ⟨?_, size ▸ withinLimit, fun required => ?_, read⟩
    · rw [size]
      exact (Nat.mul_div_cancel' (Nat.dvd_of_mod_eq_zero divides)).symm
    · rw [size]
      simpa [required] using present
  · rintro ⟨size, withinLimit, present, read⟩
    have count : table.size kind.lump / kind.size = entries.size := by
      rw [size]
      exact Nat.mul_div_cancel_left _ sizePos
    rw [count]
    refine ⟨?_, withinLimit, ?_, rfl, read⟩
    · rw [size]
      exact Nat.mul_mod_right _ _
    · cases required : kind.required with
      | false =>
          exact .inl rfl
      | true =>
          exact .inr (present required)

/-- The areas of a file, of which there is one where the file has none. -/
theorem outcome_areas_eq_ok_iff
    {areas : Array Area} :
    table.areas.outcome = .ok areas ↔
      ∃ stored,
        (table.records .area fun _ => Layout.area).outcome = .ok stored ∧
          areas =
            if stored.isEmpty then #[{ portals := ⟨0, 0⟩ }] else stored := by
  simp only [LumpTable.areas, Reading.outcome_bind, bind_eq_ok_iff,
    Reading.outcome_pure, Except.ok.injEq]
  constructor
  · rintro ⟨stored, read, rfl⟩
    exact ⟨stored, read, rfl⟩
  · rintro ⟨stored, read, rfl⟩
    exact ⟨stored, read, rfl⟩

/-- All records are read when those of each kind are. -/
theorem outcome_allRecords_eq_ok_iff
    {own : Records Float32} :
    table.allRecords.outcome = .ok own ↔
      (table.records .surface fun _ => Layout.surface).outcome =
          .ok own.surfaces ∧
        (table.records .leaf fun _ => Layout.leaf).outcome =
          .ok own.leaves ∧
        (table.records .leafBrush fun _ => Layout.leafBrush).outcome =
          .ok own.leafBrushes ∧
        (table.records .plane Layout.plane).outcome = .ok own.planes ∧
        (table.records .brush fun _ => Layout.brush).outcome =
          .ok own.brushes ∧
        (table.records .brushSide fun _ =>
            Layout.brushSide own.surfaces.size).outcome =
          .ok own.brushSides ∧
        (table.records .model fun _ => Layout.model).outcome =
          .ok own.models ∧
        (table.records .node fun _ => Layout.node).outcome = .ok own.nodes ∧
        table.areas.outcome = .ok own.areas ∧
        (table.records .areaPortal fun _ => Layout.areaPortal).outcome =
          .ok own.areaPortals := by
  simp only [allRecords, Reading.outcome_bind, bind_eq_ok_iff,
    Reading.outcome_pure, Except.ok.injEq]
  constructor
  · rintro ⟨surfaces, readSurfaces, leaves, readLeaves, leafBrushes,
      readLeafBrushes, planes, readPlanes, brushes, readBrushes, brushSides,
      readBrushSides, models, readModels, nodes, readNodes, areas, readAreas,
      areaPortals, readAreaPortals, rfl⟩
    exact
      ⟨readSurfaces, readLeaves, readLeafBrushes, readPlanes, readBrushes,
        readBrushSides, readModels, readNodes, readAreas, readAreaPortals⟩
  · rintro ⟨readSurfaces, readLeaves, readLeafBrushes, readPlanes,
      readBrushes, readBrushSides, readModels, readNodes, readAreas,
      readAreaPortals⟩
    exact
      ⟨_, readSurfaces, _, readLeaves, _, readLeafBrushes, _, readPlanes, _,
        readBrushes, _, readBrushSides, _, readModels, _, readNodes, _,
        readAreas, _, readAreaPortals, rfl⟩

/-- The visibility is read when its lump is short enough and empty or right. -/
theorem outcome_visibility_eq_ok_iff
    {visibility : Option VisibilityTable} :
    table.visibility.outcome = .ok visibility ↔
      table.size .visibility ≤ visibilityLimit ∧
        if table.size .visibility = 0 then
          visibility = none
        else
          ∃ rows,
            (Layout.visibilityTable (table.lump .visibility)).outcome =
                .ok rows ∧
              visibility = some rows := by
  simp only [LumpTable.visibility, Reading.outcome_bind,
    Reading.require_bind_eq_ok_iff, decide_eq_true_eq]
  refine and_congr_right fun _ => ?_
  split
  · simp [eq_comm]
  · simp only [Reading.outcome_bind, bind_eq_ok_iff, Reading.outcome_pure,
      Except.ok.injEq]
    exact exists_congr fun rows => and_congr_right fun _ => eq_comm

/-- The entity text is read when its lump is short enough. -/
theorem outcome_entityBytes_eq_ok_iff
    {bytes : List UInt8} :
    table.entityBytes.outcome = .ok bytes ↔
      table.size .entities ≤ entityTextLimit ∧
        table.lump .entities = bytes := by
  simp [LumpTable.entityBytes]

end LumpTable

namespace Contents

theorem isEmpty_iff
    {contents : Contents} :
    contents.isEmpty = true ↔ contents = .empty := by
  rcases contents with ⟨bits⟩
  simp [isEmpty, empty]

end Contents

namespace Records

variable {S : Type} {records : Records S}

theorem outsideIsSolid_iff :
    records.outsideIsSolid = true ↔
      ∃ leaf, records.leaves[0]? = some leaf ∧ leaf.contents = .solid := by
  unfold outsideIsSolid
  cases records.leaves[0]? with
  | none =>
      simp
  | some leaf =>
      simp

/-- The empty leaf is the first one that is empty, behind the very first leaf. -/
theorem emptyLeaf?_eq_some_iff
    {id : Nat} :
    records.emptyLeaf? = some id ↔
      0 < id ∧
        (∃ leaf, records.leaves[id]? = some leaf ∧ leaf.contents = .empty) ∧
        ∀ earlier leaf,
          0 < earlier → earlier < id →
            records.leaves[earlier]? = some leaf → leaf.contents ≠ .empty := by
  have behind (position : Nat) :
      records.leaves.toList.tail[position]? =
        records.leaves[position + 1]? := by
    rw [List.getElem?_tail, Array.getElem?_toList]
  cases id with
  | zero =>
      simp [emptyLeaf?]
  | succ place =>
      simp only [emptyLeaf?, Option.map_eq_some_iff, Nat.add_right_cancel_iff,
        exists_eq_right, List.findIdx?_eq_some_iff_getElem]
      constructor
      · rintro ⟨inRange, isEmpty, before⟩
        refine ⟨Nat.succ_pos place, ?_, ?_⟩
        · have found := List.getElem?_eq_getElem inRange
          rw [behind] at found
          exact ⟨_, found, Contents.isEmpty_iff.mp isEmpty⟩
        · intro earlier leaf positive isBefore found
          obtain ⟨step, rfl⟩ := Nat.exists_eq_succ_of_ne_zero (Nat.ne_of_gt positive)
          have stepBefore : step < place :=
            Nat.lt_of_succ_lt_succ isBefore
          rw [← behind] at found
          obtain ⟨_, rfl⟩ := List.getElem?_eq_some_iff.mp found
          intro empty
          exact before step stepBefore (Contents.isEmpty_iff.mpr empty)
      · rintro ⟨-, ⟨leaf, found, empty⟩, before⟩
        rw [← behind] at found
        obtain ⟨inRange, rfl⟩ := List.getElem?_eq_some_iff.mp found
        refine ⟨inRange, Contents.isEmpty_iff.mpr empty, ?_⟩
        intro step stepBefore isEmpty
        have earlier :=
          List.getElem?_eq_getElem (Nat.lt_trans stepBefore inRange)
        rw [behind] at earlier
        exact before (step + 1) _ (Nat.succ_pos step)
          (Nat.succ_lt_succ stepBefore) earlier
          (Contents.isEmpty_iff.mp isEmpty)

end Records

namespace Layout

/-- A brush side is read with a surface of the level or none. -/
theorem surface_lt_of_brushSide
    {surfaceCount : Nat}
    {bytes : List UInt8}
    {side : BrushSide}
    (read :
      (Reading.ofFields (brushSide surfaceCount) bytes).flatten.outcome =
        .ok side)
    {surface : Nat}
    (has : surface ∈ side.surface) :
    surface < surfaceCount := by
  rw [Reading.outcome_flatten, bind_eq_ok_iff] at read
  obtain ⟨inner, readFields, readSide⟩ := read
  obtain ⟨rest, run⟩ := Reading.outcome_ofFields_eq_ok_iff.mp readFields
  simp only [brushSide, StateT.run_bind, Option.bind_eq_bind,
    Option.bind_eq_some_iff, StateT.run_pure, Option.pure_def,
    Option.some.injEq, Prod.mk.injEq] at run
  obtain ⟨_, _, ⟨stored, after⟩, _, shape, -⟩ := run
  subst shape
  by_cases absent : stored < 0
  · simp only [absent, ↓reduceIte, bind_pure_comp, map_pure,
      Reading.outcome_pure, Except.ok.injEq] at readSide
    subst readSide
    cases has
  · simp only [absent, ↓reduceIte, bind_pure_comp, map_pure,
      Reading.outcome_map, Reading.require_bind_eq_ok_iff, decide_eq_true_eq,
      Except.ok.injEq] at readSide
    obtain ⟨inRange, rfl⟩ := readSide
    cases has
    exact inRange

end Layout

namespace Level

section

variable {S : Type} [Scalar S]

/-- Records make a level exactly when every check of them is passed. -/
theorem ofRecords_eq_ok_iff
    {own : Records S}
    {visibility : Option VisibilityTable}
    {clusterCount fileSize : Nat}
    {entityBytes : List UInt8}
    {level : Level S} :
    ofRecords own visibility clusterCount entityBytes fileSize =
        .ok level ↔
      own.violation? clusterCount = none ∧
        own.outsideIsSolid = true ∧
        own.emptyLeaf? = some level.emptyLeaf ∧
        BoxHull.fits own = true ∧
        level.own = own ∧
        level.visibility = visibility ∧
        level.clusterCount = clusterCount ∧
        level.entityBytes = entityBytes ∧
        level.fileSize = fileSize := by
  unfold ofRecords
  cases own.violation? clusterCount with
  | some error =>
      simp
  | none =>
      cases own.outsideIsSolid with
      | false =>
          simp
      | true =>
          cases own.emptyLeaf? with
          | none =>
              simp
          | some emptyLeaf =>
              cases BoxHull.fits own with
              | false =>
                  simp
              | true =>
                  rcases level with
                    ⟨levelOwn, levelEmpty, levelVisibility, levelClusters,
                      levelText, levelSize, full, fullShape⟩
                  subst fullShape
                  simp only [Bool.not_true, Bool.false_eq_true, ↓reduceIte,
                    Except.ok.injEq, mk.injEq, Option.some.injEq, true_and]
                  constructor
                  · rintro ⟨rfl, rfl, rfl, rfl, rfl, rfl, -⟩
                    exact ⟨rfl, rfl, rfl, rfl, rfl, rfl⟩
                  · rintro ⟨rfl, rfl, rfl, rfl, rfl, rfl⟩
                    exact ⟨rfl, rfl, rfl, rfl, rfl, rfl, rfl⟩

end

/-- Number of clusters of a level with this visibility and this many leaves. -/
def clustersOf
    (visibility : Option VisibilityTable)
    (leafCount : Nat) : Nat :=
  match visibility with
  | some rows => rows.clusterCount
  | none => leafCount

/-- A level is announced as it was made. -/
theorem outcome_announced
    (made : Except LevelError (Level Float32)) :
    (match made with
      | .ok level => do
          Reading.note level.arrival
          return level
      | .error error => Reading.refuse error :
        Reading (Level Float32)).outcome =
      made := by
  cases made with
  | ok level =>
      rfl
  | error error =>
      rfl

/-- A file is read part by part. -/
theorem outcome_read
    (bytes : List UInt8) :
    (read bytes).outcome =
      (LumpTable.read bytes).outcome >>= fun table =>
        table.allRecords.outcome >>= fun own =>
          table.visibility.outcome >>= fun visibility =>
            table.entityBytes.outcome >>= fun text =>
              ofRecords own visibility (clustersOf visibility own.leaves.size)
                text bytes.length := by
  unfold read
  simp only [Reading.outcome_bind]
  exact
    bind_congr fun _ => bind_congr fun _ => bind_congr fun _ =>
      bind_congr fun _ => outcome_announced _

/-- A file is read as a level when each part of it is. -/
theorem outcome_read_eq_ok_iff
    {bytes : List UInt8}
    {level : Level Float32} :
    (read bytes).outcome = .ok level ↔
      ∃ table,
        (LumpTable.read bytes).outcome = .ok table ∧
          table.allRecords.outcome = .ok level.own ∧
          table.visibility.outcome = .ok level.visibility ∧
          table.entityBytes.outcome = .ok level.entityBytes ∧
          ofRecords level.own level.visibility
              (clustersOf level.visibility level.own.leaves.size)
              level.entityBytes bytes.length =
            .ok level := by
  rw [outcome_read]
  simp only [bind_eq_ok_iff]
  constructor
  · rintro ⟨table, readTable, own, readOwn, visibility, readVisibility, text,
      readText, made⟩
    obtain ⟨-, -, -, -, rfl, rfl, -, rfl, -⟩ := ofRecords_eq_ok_iff.mp made
    exact ⟨table, readTable, readOwn, readVisibility, readText, made⟩
  · rintro ⟨table, readTable, readOwn, readVisibility, readText, made⟩
    exact
      ⟨table, readTable, _, readOwn, _, readVisibility, _, readText, made⟩

end Level

end LevelCollision
