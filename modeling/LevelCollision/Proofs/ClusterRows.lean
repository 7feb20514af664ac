import LevelCollision.Proofs.FatRows
import LevelCollision.Proofs.LumpBytes
import LevelCollision.Proofs.RowExpansions

namespace LevelCollision

/-!
# Rows of clusters

What is seen or heard from a cluster is told by the bytes of the file alone: those of the
visibility lump from the stored offset of the row onwards, expanded, and cut off or padded
with zeros to the length of a row. Only the bit of the cluster itself is set in any case.
-/

namespace RunLength

/-- The row of a length that is the beginning of a whole, with zeros for what is missing. -/
def padded
    (stored : List UInt8)
    (length : Nat) : BitRow where
  bytes :=
    ((whole stored).take length ++
      List.replicate (length - (whole stored).length) 0).toArray

theorem value_expand
    (stored : List UInt8)
    (length : Nat) :
    (expand stored length).value = padded stored length := by
  unfold padded
  rw [← toList_expand, Array.toArray_toList]

end RunLength

namespace Level

variable {bytes : List UInt8} {level : Level Float32}

/-- A level has visibility data if its lump is not empty, and the lump then tells the rows. -/
theorem stores_rows_of_read
    (accepted : (read bytes).outcome = .ok level) :
    ∃ lump,
      StoresLump bytes .visibility lump ∧
        (lump = [] → level.visibility = none) ∧
        (lump ≠ [] →
          StoresInteger lump 0 level.clusterCount ∧
            ∃ table,
              level.visibility = some table ∧
                table.bytes = lump ∧
                  ∀ cluster offsets,
                    table.offsets[cluster]? = some offsets →
                      ∀ sense,
                        StoresRowOffset lump cluster sense
                          (offsets.get sense)) := by
  obtain ⟨table, readTable, _, readVisibility, _⟩ :=
    outcome_read_eq_ok_iff.mp accepted
  obtain ⟨stores, length⟩ :=
    LumpTable.stores_of_read readTable .visibility
  obtain ⟨_, visibility⟩ :=
    LumpTable.outcome_visibility_eq_ok_iff.mp readVisibility
  refine ⟨_, stores, fun isEmpty => ?_, fun notEmpty => ?_⟩
  · rw [isEmpty, List.length_nil] at length
    rw [if_pos length.symm] at visibility
    exact visibility
  · have hasSize : table.size .visibility ≠ 0 := by
      rw [← length]
      exact fun isZero => notEmpty (List.length_eq_zero_iff.mp isZero)
    rw [if_neg hasSize] at visibility
    obtain ⟨rows, readRows, isTable⟩ := visibility
    obtain ⟨isLump, storesCount, storesOffsets⟩ :=
      Layout.stores_of_visibilityTable readRows
    have clusters := ((sound_of_read accepted).rows rows isTable).clusters
    rw [clusters] at storesCount
    exact ⟨storesCount, rows, isTable, isLump, storesOffsets⟩

end Level

namespace World

/--
In a level that was read each cluster has two rows, with a bit for each cluster in as few
bytes as hold them. The bit of the cluster itself is set. Every other one is that of the
bytes of the visibility lump from the offset that is stored for the row, expanded to the
length of a row. Without visibility data all bits are set, and outside of the clusters none.
-/
theorem clusterRow_of_read
    {bytes : List UInt8}
    {world : World Float32}
    (accepted : (Level.read bytes).outcome = .ok world.level) :
    ∃ lump,
      StoresLump bytes .visibility lump ∧
        (lump ≠ [] → StoresInteger lump 0 world.level.clusterCount) ∧
        ∀ sense,
          (∃ row,
            world.clusterRow sense none = .ok row ∧
              row.value.bytes.size = (world.level.clusterCount + 7) / 8 ∧
              ∀ position, row.value.get position = false) ∧
          ∀ cluster < world.level.clusterCount,
            ∃ row,
              world.clusterRow sense (some cluster) = .ok row ∧
                row.value.bytes.size = (world.level.clusterCount + 7) / 8 ∧
                row.value.get cluster = true ∧
                (lump = [] →
                  ∀ position < 8 * row.value.bytes.size,
                    row.value.get position = true) ∧
                (lump ≠ [] →
                  ∃ offset,
                    StoresRowOffset lump cluster sense offset ∧
                      ∀ position,
                        position ≠ cluster →
                          row.value.get position =
                            (RunLength.padded (lump.drop offset)
                              row.value.bytes.size).get position) := by
  have sound := Level.sound_of_read accepted
  obtain ⟨lump, stores, without, within⟩ :=
    Level.stores_rows_of_read accepted
  refine ⟨lump, stores, fun notEmpty => (within notEmpty).1, fun sense => ?_⟩
  refine ⟨⟨_, rfl, BitRow.size_clear _, BitRow.get_clear _⟩, ?_⟩
  intro cluster inRange
  obtain ⟨row, found, length⟩ :=
    @Level.Sound.exists_clusterRow Float32 _ world.level sound (some cluster)
      (fun id isCluster => Option.mem_some_iff.mp isCluster ▸ inRange) sense
  refine
    ⟨row, found, length, Level.get_of_clusterRow_some found,
      fun isEmpty position inRow => ?_, fun notEmpty => ?_⟩
  · rw [Level.clusterRow, if_pos inRange, without isEmpty] at found
    cases found
    exact BitRow.get_full (by rw [← length]; omega)
  · obtain ⟨_, table, isTable, rfl, storesOffsets⟩ := within notEmpty
    obtain ⟨offsets, other, hasOffsets, foundToo, isRow⟩ :=
      sound.exists_clusterRow_of_table isTable inRange sense
    cases found.symm.trans foundToo
    refine
      ⟨_, storesOffsets cluster offsets hasOffsets sense,
        fun position isOther => ?_⟩
    rw [length, isRow, BitRow.get_set, RunLength.value_expand,
      decide_eq_false isOther, Bool.false_or]
    rw [RunLength.size_expand]
    exact BitRow.div_lt_byteCount inRange

/--
The room in front sees nothing but itself: its row is stored as a run of zeros, behind
the byte of the other room's row.
-/
theorem clusterRow_twoRooms :
    ∃ (world : World Float32) (row : Logged BitRow),
      (Level.read Stored.Level.twoRooms.packed).outcome = .ok world.level ∧
        world.clusterRow .hearing (some 1) = .ok row ∧
        row.value = ⟨#[0x02]⟩ ∧
        ∃ lump offset,
          StoresLump Stored.Level.twoRooms.packed .visibility lump ∧
            StoresRowOffset lump 1 .hearing offset ∧
            row.value.get 0 =
              (RunLength.padded (lump.drop offset) 1).get 0 := by
  have run :
      ((Level.read Stored.Level.twoRooms.packed).outcome.toOption.bind
        fun level => (World.ofLevel level).toOption.bind
          fun world =>
            (world.clusterRow .hearing (some 1)).toOption.map
              fun row =>
                (world.level.clusterCount, row.value)) =
        some (2, ⟨#[0x02]⟩) := by
    decide +kernel
  simp only [Option.bind_eq_some_iff, Option.map_eq_some_iff,
    toOption_eq_some_iff, Prod.mk.injEq] at run
  obtain ⟨level, accepted, world, loaded, row, answers, clusters, isRow⟩ :=
    run
  cases level_of_ofLevel loaded
  obtain ⟨lump, stores, _, rows⟩ := clusterRow_of_read accepted
  obtain ⟨_, ofClusters⟩ := rows .hearing
  obtain ⟨_, answersAgain, length, _, allSet, expanded⟩ :=
    ofClusters 1 (by rw [clusters]; decide)
  cases answers.symm.trans answersAgain
  have isByte : row.value.bytes.size = 1 := by
    rw [isRow]
    rfl
  have notEmpty : lump ≠ [] := by
    intro isEmpty
    have isSet := allSet isEmpty 0 (by rw [isByte]; decide)
    rw [isRow] at isSet
    cases isSet
  obtain ⟨offset, storesOffset, others⟩ := expanded notEmpty
  have other := others 0 (by decide)
  rw [isByte] at other
  exact
    ⟨world, row, accepted, answers, isRow, lump, offset, stores,
      storesOffset, other⟩

end World

end LevelCollision
