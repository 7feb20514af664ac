import LevelCollision.Proofs.LoadedLevel
import LevelCollision.Proofs.LumpBytes

namespace LevelCollision

/-!
# Levels that queries can rely on

Queries look up what records name, the areas and the clusters of leaves, and the rows of
clusters. All of it is there in a level that was read, and in the level without a map.
-/

/-- What has no contents stops nothing. -/
theorem Contents.not_intersects_empty
    (mask : Contents) :
    Contents.empty.intersects mask = false := by
  simp [intersects, inter, isEmpty, empty]

/-- Each cluster has its rows, and each row begins inside the stored bytes. -/
structure VisibilityTable.Sound
    (table : VisibilityTable)
    (clusterCount : Nat) : Prop where
  clusters :
    table.clusterCount = clusterCount
  begins :
    ∀ offsets ∈ table.offsets,
      ∀ sense, offsets.get sense < table.bytes.length

/-- The rows of a visibility lump that was read begin inside it. -/
theorem Layout.rows_begin_of_visibilityTable
    {bytes : List UInt8}
    {table : VisibilityTable}
    (read : (visibilityTable bytes).outcome = .ok table)
    {offsets : RowOffsets}
    (member : offsets ∈ table.offsets)
    (sense : Sense) :
    offsets.get sense < table.bytes.length := by
  obtain ⟨isLump, _, stores⟩ := stores_of_visibilityTable read
  obtain ⟨cluster, found⟩ := Array.mem_iff_getElem?.mp member
  rw [isLump]
  exact (stores cluster offsets found sense).2

namespace Level

section

variable {S : Type} [Scalar S]

/-- What the queries of a level rely on. -/
structure Sound
    (level : Level S) : Prop where
  closed :
    level.own.Closed level.clusterCount
  hasArea :
    0 < level.own.areas.size
  hasModel :
    0 < level.own.models.size
  emptyLeaf :
    ∃ leaf,
      level.own.leaves[level.emptyLeaf]? = some leaf ∧
        leaf.contents = .empty
  rows :
    ∀ table ∈ level.visibility, table.Sound level.clusterCount

theorem Sound.emptyLeaf_lt
    {level : Level S}
    (sound : level.Sound) :
    level.emptyLeaf < level.own.leaves.size := by
  obtain ⟨leaf, found, _⟩ := sound.emptyLeaf
  exact (Array.getElem?_eq_some_iff.mp found).1

/-- The records of each tree of a sound level are closed. -/
theorem Sound.closed_tree
    {level : Level S}
    (sound : level.Sound)
    (head : Head S) :
    (level.tree head).records.Closed level.clusterCount := by
  rw [records_tree]
  exact sound.closed.withBoxHull sound.hasArea sound.emptyLeaf_lt

/-- The level without a map is sound. -/
theorem sound_empty :
    (empty : Level S).Sound where
  closed := by
    refine Records.closed_iff.mpr ⟨rfl, ?_⟩
    intro side member
    exact absurd member (Array.not_mem_empty side)
  hasArea := Nat.one_pos
  hasModel := Nat.one_pos
  emptyLeaf := ⟨_, rfl, rfl⟩
  rows := by
    rintro table ⟨⟩

end

/-- Every level that was read is sound. -/
theorem sound_of_read
    {bytes : List UInt8}
    {level : Level Float32}
    (accepted : (read bytes).outcome = .ok level) :
    level.Sound where
  closed := own_closed_of_read accepted
  hasArea := areas_nonempty_of_read accepted
  hasModel := by
    obtain ⟨table, _, readRecords, _⟩ := outcome_read_eq_ok_iff.mp accepted
    obtain ⟨_, _, _, _, _, _, readModels, _⟩ :=
      LumpTable.outcome_allRecords_eq_ok_iff.mp readRecords
    obtain ⟨_, _, present, _⟩ :=
      LumpTable.outcome_records_eq_ok_iff.mp readModels
    exact present rfl
  emptyLeaf := (emptyLeaf_of_read accepted).2
  rows := by
    intro rows isTable
    obtain ⟨table, _, _, readVisibility, _, made⟩ :=
      outcome_read_eq_ok_iff.mp accepted
    obtain ⟨_, _, _, _, _, _, clusters, _⟩ := ofRecords_eq_ok_iff.mp made
    rw [Option.mem_def.mp isTable] at readVisibility clusters
    obtain ⟨_, readTable⟩ :=
      LumpTable.outcome_visibility_eq_ok_iff.mp readVisibility
    split at readTable
    · cases readTable
    · obtain ⟨readRows, isRows, same⟩ := readTable
      cases same
      exact
        { clusters := clusters.symm
          begins := fun _ member =>
            Layout.rows_begin_of_visibilityTable isRows member }

end Level

end LevelCollision
