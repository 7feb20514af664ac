import LevelCollision.Proofs.FieldBytes
import LevelCollision.Proofs.LevelReading

namespace LevelCollision

/-!
# Where in a file numbers come from

The table of an accepted file holds the offset and the size of each lump, and a
visibility lump holds the number of its clusters and the offsets of their rows. What was
read of them is what these bytes store, each number in its own place.
-/

/-- A signed number is stored in the four bytes from a position onwards. -/
def StoresInteger
    (bytes : List UInt8)
    (position : Nat)
    (number : Int) : Prop :=
  ∃ stored : Int32,
    stored.toInt = number ∧
      bytes32 stored.toUInt32 <+: bytes.drop position

/-- The table of a file gives the offset and the size of a lump, and so its bytes. -/
def StoresLump
    (bytes : List UInt8)
    (id : LumpId)
    (lump : List UInt8) : Prop :=
  ∃ offset size : Nat,
    StoresInteger bytes (8 + 8 * id.index) offset ∧
      StoresInteger bytes (8 + 8 * id.index + 4) size ∧
        offset + size ≤ bytes.length ∧
          lump = (bytes.drop offset).take size

/-- Of the two offsets of a cluster that for hearing comes second. -/
def Sense.place : Sense → Nat
  | .sight => 0
  | .hearing => 4

/-- The offset at which a row of a cluster begins is stored in a visibility lump. -/
def StoresRowOffset
    (lump : List UInt8)
    (cluster : Nat)
    (sense : Sense)
    (offset : Nat) : Prop :=
  StoresInteger lump (4 + 8 * cluster + sense.place) offset ∧
    offset < lump.length

namespace StoresInteger

variable {bytes : List UInt8} {position start size : Nat} {number : Int}

theorem behind
    (stores : StoresInteger (bytes.drop start) position number) :
    StoresInteger bytes (start + position) number := by
  obtain ⟨stored, isNumber, isPrefix⟩ := stores
  rw [List.drop_drop] at isPrefix
  exact ⟨stored, isNumber, isPrefix⟩

theorem ofTake
    (stores : StoresInteger (bytes.take size) position number) :
    StoresInteger bytes position number := by
  obtain ⟨stored, isNumber, isPrefix⟩ := stores
  rw [List.drop_take] at isPrefix
  exact ⟨stored, isNumber, isPrefix.trans (List.take_prefix _ _)⟩

end StoresInteger

/-- A number that was read is stored in front, and the bytes behind it are left. -/
theorem Fields.stores_of_run_integer32
    {bytes rest : List UInt8}
    {number : Int}
    (run : integer32.run bytes = some (number, rest)) :
    StoresInteger bytes 0 number ∧ rest = bytes.drop 4 := by
  obtain ⟨stored, isNumber, rfl⟩ := exists_of_run_integer32 run
  refine ⟨⟨stored, isNumber, List.prefix_append _ _⟩, ?_⟩
  exact (List.drop_left' (length_bytes32 _)).symm

namespace LumpTable

variable {bytes : List UInt8} {table : LumpTable}

/-- An entry of the table that was read tells of a part of the file. -/
theorem stores_of_entry
    {fileSize : Nat}
    {id : LumpId}
    {span : Nat × Nat}
    (read :
      (Reading.ofFields (entry fileSize id) bytes).flatten.outcome =
        .ok span) :
    StoresInteger bytes 0 span.1 ∧
      StoresInteger bytes 4 span.2 ∧
        span.1 + span.2 ≤ fileSize := by
  rw [Reading.outcome_flatten, bind_eq_ok_iff] at read
  obtain ⟨inner, readFields, readSpan⟩ := read
  obtain ⟨rest, run⟩ := Reading.outcome_ofFields_eq_ok_iff.mp readFields
  simp only [entry, StateT.run_bind, Option.bind_eq_bind,
    Option.bind_eq_some_iff, StateT.run_pure, Option.pure_def,
    Option.some.injEq, Prod.mk.injEq] at run
  obtain ⟨⟨offset, middle⟩, runOffset, ⟨size, _⟩, runSize, shape, -⟩ := run
  subst shape
  rw [Reading.outcome_bind, Reading.require_bind_eq_ok_iff,
    decide_eq_true_eq, Reading.outcome_pure, Except.ok.injEq] at readSpan
  obtain ⟨⟨offsetNonneg, sizeNonneg, inFile⟩, rfl⟩ := readSpan
  obtain ⟨storesOffset, rfl⟩ := Fields.stores_of_run_integer32 runOffset
  obtain ⟨storesSize, -⟩ := Fields.stores_of_run_integer32 runSize
  dsimp only
  rw [Int.toNat_of_nonneg offsetNonneg, Int.toNat_of_nonneg sizeNonneg]
  exact ⟨storesOffset, storesSize.behind, by omega⟩

/-- The lumps of a table that was read are those that the file stores. -/
theorem stores_of_read
    (read : (LumpTable.read bytes).outcome = .ok table)
    (id : LumpId) :
    StoresLump bytes id (table.lump id) ∧
      (table.lump id).length = table.size id := by
  simp only [LumpTable.read, Reading.outcome_bind, bind_eq_ok_iff,
    Reading.outcome_pure, Except.ok.injEq] at read
  obtain ⟨_, _, _, _, _, _, _, _, _, _, spans, readSpans, rfl⟩ := read
  have readEntry :=
    Reading.outcome_get_of_outcome_mapM_vector readSpans id.index
  rw [LumpId.all_get_index] at readEntry
  obtain ⟨storesOffset, storesSize, inFile⟩ := stores_of_entry readEntry
  have place : markSize + id.index * entrySize = 8 + 8 * id.index :=
    congrArg (8 + ·) (Nat.mul_comm _ 8)
  rw [entryBytes, place] at storesOffset storesSize
  constructor
  · exact
      ⟨_, _, storesOffset.behind, storesSize.behind, inFile, rfl⟩
  · change
      ((bytes.drop (spans.get id.index).1).take
          (spans.get id.index).2).length =
        (spans.get id.index).2
    rw [List.length_take, List.length_drop]
    exact Nat.min_eq_left (by omega)

end LumpTable

namespace Layout

variable {lump : List UInt8} {table : VisibilityTable}

/-- An offset that was read is not negative and lies inside the lump. -/
theorem rowOffset_eq_ok_iff
    {lumpSize cluster offset : Nat}
    {stored : Int} :
    (rowOffset lumpSize cluster stored).outcome = .ok offset ↔
      stored = offset ∧ offset < lumpSize := by
  rw [rowOffset, Reading.outcome_bind, Reading.require_bind_eq_ok_iff,
    decide_eq_true_eq, Reading.outcome_pure, Except.ok.injEq]
  omega

/-- The two offsets of a cluster are stored one behind the other. -/
theorem stores_of_rowOffsets
    {lumpSize cluster : Nat}
    {bytes : List UInt8}
    {offsets : RowOffsets}
    (read :
      (Reading.ofFields (rowOffsets lumpSize cluster) bytes).flatten.outcome =
        .ok offsets)
    (sense : Sense) :
    StoresInteger bytes sense.place (offsets.get sense) ∧
      offsets.get sense < lumpSize := by
  rw [Reading.outcome_flatten, bind_eq_ok_iff] at read
  obtain ⟨inner, readFields, readOffsets⟩ := read
  obtain ⟨rest, run⟩ := Reading.outcome_ofFields_eq_ok_iff.mp readFields
  simp only [rowOffsets, StateT.run_bind, Option.bind_eq_bind,
    Option.bind_eq_some_iff, StateT.run_pure, Option.pure_def,
    Option.some.injEq, Prod.mk.injEq] at run
  obtain ⟨⟨first, middle⟩, runFirst, ⟨second, _⟩, runSecond, shape, -⟩ := run
  subst shape
  simp only [Reading.outcome_bind, bind_eq_ok_iff, Reading.outcome_pure,
    Except.ok.injEq, rowOffset_eq_ok_iff] at readOffsets
  obtain ⟨sight, ⟨rfl, sightInside⟩, hearing, ⟨rfl, hearingInside⟩, rfl⟩ :=
    readOffsets
  obtain ⟨storesSight, rfl⟩ := Fields.stores_of_run_integer32 runFirst
  obtain ⟨storesHearing, -⟩ := Fields.stores_of_run_integer32 runSecond
  cases sense with
  | sight =>
      exact ⟨storesSight, sightInside⟩
  | hearing =>
      exact ⟨storesHearing.behind, hearingInside⟩

/-- A visibility lump stores the number of its clusters and where their rows begin. -/
theorem stores_of_visibilityTable
    (read : (visibilityTable lump).outcome = .ok table) :
    table.bytes = lump ∧
      StoresInteger lump 0 table.clusterCount ∧
        ∀ cluster offsets,
          table.offsets[cluster]? = some offsets →
            ∀ sense,
              StoresRowOffset lump cluster sense (offsets.get sense) := by
  simp only [visibilityTable] at read
  split at read
  · cases read
  · simp only [Reading.outcome_bind, bind_eq_ok_iff] at read
    obtain ⟨count, readCount, read⟩ := read
    obtain ⟨_, runCount⟩ := Reading.outcome_ofFields_eq_ok_iff.mp readCount
    split at read
    · cases read
    · rename_i nonneg
      split at read
      · cases read
      · simp only [Reading.outcome_bind, bind_eq_ok_iff,
          Reading.outcome_pure, Except.ok.injEq] at read
        obtain ⟨rows, readRows, rfl⟩ := read
        obtain ⟨size, readAs⟩ :=
          Reading.outcome_records_eq_ok_iff.mp readRows
        refine ⟨rfl, ?_, ?_⟩
        · have isCount : (rows.size : Int) = count := by
            rw [size]
            exact Int.toNat_of_nonneg (Int.not_lt.mp nonneg)
          rw [VisibilityTable.clusterCount, isCount]
          exact (Fields.stores_of_run_integer32 runCount).1
        · intro cluster offsets found sense
          obtain ⟨inRange, rfl⟩ := Array.getElem?_eq_some_iff.mp found
          have readHere :=
            readAs.stretch (by rw [Array.length_toList]; exact inRange)
          rw [Array.getElem_toList] at readHere
          obtain ⟨stores, inside⟩ := stores_of_rowOffsets readHere sense
          refine ⟨?_, inside⟩
          have place : 4 + 8 * cluster + sense.place =
              clusterCountSize + (cluster * rowOffsetsSize + sense.place) := by
            rw [clusterCountSize, rowOffsetsSize, Nat.mul_comm 8,
              Nat.add_assoc]
          rw [place]
          exact stores.ofTake.behind.behind

end Layout

end LevelCollision
