import Mathlib.Tactic.Choose
import LevelCollision.Proofs.LevelReading
import LevelCollision.Proofs.PackedLevel

namespace LevelCollision

/-!
# Lumps as they are stored

The table of a file gives the bytes of each lump, wherever they lie. Records that a
lump holds in order are read in order, and a visibility lump is read as its table.
-/

namespace Stored

section InOrder

variable {α β : Type} {encodes : α → List UInt8 → Prop}
variable {entries : List α} {bytes : List UInt8} {size : Nat}

/-- Records of one size take up as many bytes as that size says. -/
theorem InOrder.length
    (inOrder : InOrder encodes entries bytes)
    (sized :
      ∀ {entry : α} {stretch : List UInt8},
        encodes entry stretch → stretch.length = size) :
    bytes.length = size * entries.length := by
  induction inOrder with
  | nil =>
      rfl
  | cons encoded _ inductionHypothesis =>
      rw [List.length_append, sized encoded, inductionHypothesis,
        List.length_cons, Nat.mul_succ, Nat.add_comm]

/-- Records that are held in order are read in order, whatever follows them. -/
theorem InOrder.readAs
    {meaning : α → β}
    {record : Nat → Fields (Reading β)}
    {position : Nat}
    (inOrder : InOrder encodes entries bytes)
    (sized :
      ∀ {entry : α} {stretch : List UInt8},
        encodes entry stretch → stretch.length = size)
    (reads :
      ∀ entry ∈ entries, ∀ stretch position,
        encodes entry stretch →
          (Reading.ofFields (record position) stretch).flatten.outcome =
            .ok (meaning entry))
    (trailing : List UInt8) :
    Reading.ReadAs size record position (bytes ++ trailing)
      (entries.map meaning) := by
  induction inOrder generalizing position with
  | nil =>
      exact .nil position _
  | @cons entry rest stretch more encoded _ inductionHypothesis =>
      have length := sized encoded
      have others :
          Reading.ReadAs size record (position + 1) (more ++ trailing)
            (rest.map meaning) :=
        inductionHypothesis fun other member =>
          reads other (List.mem_cons_of_mem entry member)
      rw [List.append_assoc]
      refine .cons ?_ ?_
      · rw [List.take_left' length]
        exact reads entry List.mem_cons_self stretch position encoded
      · rw [List.drop_left' length]
        exact others

end InOrder

namespace Visibility

variable {visibility : Visibility}

theorem length_offsetBytes
    (offsets : Int32 × Int32) :
    (offsetBytes offsets).length = 8 := by
  rw [offsetBytes, List.length_append, length_bytes32, length_bytes32]

theorem length_bytes
    (visibility : Visibility) :
    visibility.bytes.length =
      4 + visibility.offsets.length * 8 + visibility.rows.length := by
  have offsets :=
    length_flatMap_of_length length_offsetBytes visibility.offsets
  rw [bytes, List.length_append, List.length_append, length_bytes32]
  exact congrArg (4 + · + visibility.rows.length) offsets

/-- Two offsets in the lump are read as they are. -/
theorem read_offsetBytes
    {offsets : Int32 × Int32}
    (sight : visibility.HasOffset offsets.1)
    (hearing : visibility.HasOffset offsets.2)
    (cluster : Nat) :
    (Reading.ofFields
        (Layout.rowOffsets visibility.bytes.length cluster)
        (offsetBytes offsets)).flatten.outcome =
      .ok
        { sight := offsets.1.toInt.toNat
          hearing := offsets.2.toInt.toNat } := by
  simp [Reading.ofFields, Layout.rowOffsets, Layout.rowOffset, offsetBytes,
    Reading.outcome_require, sight.1, sight.2, hearing.1, hearing.2]

/-- A visibility lump with right offsets is read as its table. -/
theorem read
    (short : visibility.bytes.length ≤ visibilityLimit)
    (inLump :
      ∀ offsets ∈ visibility.offsets,
        visibility.HasOffset offsets.1 ∧ visibility.HasOffset offsets.2) :
    (Layout.visibilityTable visibility.bytes).outcome =
      .ok visibility.table := by
  have length := visibility.length_bytes
  have few : visibility.offsets.length < 2 ^ 31 := by
    unfold visibilityLimit at short
    omega
  have count :
      (Reading.ofFields Fields.integer32 visibility.bytes).outcome =
        .ok (visibility.offsets.length : Int) := by
    rw [Reading.outcome_ofFields_eq_ok_iff]
    refine
      ⟨visibility.offsets.flatMap offsetBytes ++ visibility.rows, ?_⟩
    have run :=
      Fields.run_integer32 (Int32.ofNat visibility.offsets.length)
        (visibility.offsets.flatMap offsetBytes ++ visibility.rows)
    rw [Int32.toInt_ofNat_of_lt few] at run
    rw [bytes, List.append_assoc]
    exact run
  have rows :
      (Reading.records Layout.rowOffsetsSize visibility.offsets.length
          (Layout.rowOffsets visibility.bytes.length)
          (visibility.bytes.drop Layout.clusterCountSize)).outcome =
        .ok visibility.table.offsets := by
    rw [Reading.outcome_records_eq_ok_iff]
    refine ⟨by simp [table], ?_⟩
    have inOrder :
        InOrder (fun offsets stretch => offsetBytes offsets = stretch)
          visibility.offsets (visibility.offsets.flatMap offsetBytes) :=
      inOrder_flatMap (fun _ => rfl) visibility.offsets
    have behindCount :
        visibility.bytes.drop Layout.clusterCountSize =
          visibility.offsets.flatMap offsetBytes ++ visibility.rows := by
      rw [bytes, List.append_assoc]
      exact List.drop_left' (length_bytes32 _)
    rw [behindCount]
    refine inOrder.readAs ?_ ?_ visibility.rows
    · rintro offsets stretch rfl
      exact length_offsetBytes offsets
    · rintro offsets member stretch cluster rfl
      obtain ⟨sight, hearing⟩ := inLump offsets member
      exact read_offsetBytes sight hearing cluster
  have hasCount :
      ¬visibility.bytes.length < Layout.clusterCountSize := by
    unfold Layout.clusterCountSize
    omega
  have hasOffsets :
      ¬visibility.bytes.length <
        Layout.clusterCountSize +
          visibility.offsets.length * Layout.rowOffsetsSize := by
    unfold Layout.clusterCountSize Layout.rowOffsetsSize
    omega
  have nonnegative : ¬(visibility.offsets.length : Int) < 0 := by
    omega
  simp only [Layout.visibilityTable, hasCount, ↓reduceIte,
    Reading.outcome_bind, count, ok_bind, nonnegative, Int.toNat_natCast,
    hasOffsets, rows, Reading.outcome_pure]
  rfl

end Visibility

namespace Level

variable {level : Level} {bytes : List UInt8}

/-- A file of a level has room for the table. -/
theorem Serialises.headerSize_le
    (serialises : level.Serialises bytes) :
    LumpTable.headerSize ≤ bytes.length := by
  obtain ⟨_, _, entry, _⟩ := serialises.lumps .areaPortals
  have length := entry.length_le
  rw [List.length_append, length_bytes32, length_bytes32,
    List.length_drop] at length
  change 4 + 4 ≤ bytes.length - 152 at length
  change 160 ≤ bytes.length
  omega

/-- The entry of a lump in the table is read, and gives the bytes of the lump. -/
theorem Serialises.read_entry
    (serialises : level.Serialises bytes)
    (id : LumpId) :
    ∃ span : Nat × Nat,
      (Reading.ofFields (LumpTable.entry bytes.length id)
          (LumpTable.entryBytes bytes id)).flatten.outcome =
          .ok span ∧
        level.Holds id ((bytes.drop span.1).take span.2) ∧
        ((bytes.drop span.1).take span.2).length = span.2 := by
  obtain ⟨offset, size, ⟨rest, shape⟩, offsetStart, sizeStart, inFile,
    holds⟩ := serialises.lumps id
  refine ⟨(offset.toInt.toNat, size.toInt.toNat), ?_, holds, ?_⟩
  · have inBounds :
        0 ≤ offset.toInt ∧ 0 ≤ size.toInt ∧
          offset.toInt + size.toInt ≤ (bytes.length : Int) :=
      ⟨offsetStart, sizeStart, inFile⟩
    have place :
        LumpTable.entryBytes bytes id =
          bytes32 offset.toUInt32 ++ (bytes32 size.toUInt32 ++ rest) := by
      rw [LumpTable.entryBytes, ← List.append_assoc, shape, Nat.mul_comm]
      rfl
    rw [place]
    simp only [Reading.ofFields, LumpTable.entry, StateT.run_bind,
      Fields.run_integer32, Option.bind_eq_bind, Option.bind_some,
      StateT.run_pure, Option.pure_def, Reading.outcome_flatten,
      Reading.outcome_value, ok_bind, Reading.outcome_bind,
      Reading.outcome_require, inBounds, and_self, decide_true, ↓reduceIte,
      Reading.outcome_pure]
  · rw [List.length_take, List.length_drop]
    omega

/-- The lumps that a table gives are those of the level. -/
structure Lists
    (level : Level)
    (table : LumpTable) : Prop where
  holds :
    ∀ id, level.Holds id (table.lump id)
  size :
    ∀ id, (table.lump id).length = table.size id

/-- The table of a file is read, and it lists the lumps of the level. -/
theorem Serialises.read_table
    (serialises : level.Serialises bytes)
    (version : level.version.toInt = 38 ∨ level.version.toInt = 69) :
    ∃ table,
      (LumpTable.read bytes).outcome = .ok table ∧ level.Lists table := by
  have large := serialises.headerSize_le
  obtain ⟨rest, shape⟩ := serialises.mark
  choose span reads holds sized using serialises.read_entry
  have mark :
      (Reading.ofFields Fields.word32 bytes).outcome =
        .ok LumpTable.ident := by
    rw [Reading.outcome_ofFields_eq_ok_iff]
    refine ⟨bytes32 level.version.toUInt32 ++ rest, ?_⟩
    have ident : identBytes = bytes32 LumpTable.ident := by
      decide
    rw [← shape, ident, List.append_assoc]
    exact Fields.run_word32 _ _
  have readVersion :
      (Reading.ofFields Fields.integer32 (bytes.drop 4)).outcome =
        .ok level.version.toInt := by
    rw [Reading.outcome_ofFields_eq_ok_iff]
    refine ⟨rest, ?_⟩
    rw [← shape, List.append_assoc]
    exact Fields.run_integer32 _ _
  have supported :
      LumpTable.versions.contains level.version.toInt = true := by
    rcases version with older | newer
    · rw [older]
      rfl
    · rw [newer]
      rfl
  have spans :
      (LumpId.all.mapM fun id =>
          Reading.flatten
            (Reading.ofFields (LumpTable.entry bytes.length id)
              (LumpTable.entryBytes bytes id))).outcome =
        .ok (LumpId.all.map span) :=
    Reading.outcome_mapM_vector fun id _ => reads id
  refine ⟨{ bytes := bytes, spans := LumpId.all.map span }, ?_, ?_⟩
  · simp only [LumpTable.read, Reading.outcome_bind,
      Reading.outcome_require, large, decide_true, ↓reduceIte, ok_bind, mark,
      beq_self_eq_true, readVersion, supported, spans, Reading.outcome_pure]
  · have spanOf (id : LumpId) :
        (LumpId.all.map span).get id.index = span id := by
      change (LumpId.all.map span)[id.index] = span id
      rw [Fin.getElem_fin, Vector.getElem_map]
      exact congrArg span (LumpId.all_get_index id)
    exact
      { holds := by
          intro id
          rw [LumpTable.lump, spanOf]
          exact holds id
        size := by
          intro id
          rw [LumpTable.lump, LumpTable.size, spanOf]
          exact sized id }

end Level

end Stored

end LevelCollision
