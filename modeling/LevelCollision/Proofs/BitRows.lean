import LevelCollision.Level.Basic

namespace LevelCollision

/-!
# Bits of rows

A row is known by its bits: what is set is set, all other bits are as they were, and
bits past the last byte are clear.
-/

namespace BitRow

/-- The byte of a bit that is counted. -/
theorem div_lt_byteCount
    {position bits : Nat}
    (inRange : position < bits) :
    position / 8 < byteCount bits := by
  unfold byteCount
  omega

@[simp] theorem size_set
    (row : BitRow)
    (position : Nat) :
    (row.set position).bytes.size = row.bytes.size :=
  Array.size_modify

/-- A bit is marked in a row of enough bytes. -/
theorem mark_of_lt
    {row : BitRow}
    {position bits : Nat}
    (length : row.bytes.size = byteCount bits)
    (inRange : position < bits) :
    row.mark position = .ok (row.set position) := by
  refine if_pos ?_
  rw [length]
  exact div_lt_byteCount inRange

/-- A mask is a power of two. -/
theorem toBitVec_bitMask
    (position : Nat) :
    (bitMask position).toBitVec = BitVec.twoPow 8 (position % 8) := by
  have offsets :
      ∀ offset : Fin 8,
        (1 <<< UInt8.ofNat offset).toBitVec = BitVec.twoPow 8 offset := by
    decide
  exact offsets ⟨position % 8, Nat.mod_lt position (by decide)⟩

/-- It picks one bit of a byte. -/
theorem and_bitMask_ne_zero
    (byte : UInt8)
    (position : Nat) :
    (byte &&& bitMask position != 0) =
      byte.toBitVec.getLsbD (position % 8) := by
  have inByte : position % 8 < 8 := Nat.mod_lt position (by decide)
  rw [Bool.eq_iff_iff, bne_iff_ne, ne_eq, ← UInt8.toBitVec_inj,
    UInt8.toBitVec_and, toBitVec_bitMask, BitVec.and_twoPow]
  cases isSet : byte.toBitVec.getLsbD (position % 8) with
  | false =>
      simp
  | true =>
      have bit :
          (BitVec.twoPow 8 (position % 8)).getLsbD (position % 8) = true := by
        simp [inByte]
      refine iff_of_true ?_ rfl
      intro isZero
      rw [if_pos rfl] at isZero
      rw [isZero] at bit
      simp at bit

/-- A bit of a row is a bit of the byte that holds it. -/
theorem get_eq_any
    (row : BitRow)
    (position : Nat) :
    row.get position =
      row.bytes[position / 8]?.any
        (·.toBitVec.getLsbD (position % 8)) := by
  unfold get
  cases row.bytes[position / 8]? with
  | none =>
      rfl
  | some byte =>
      exact and_bitMask_ne_zero byte position

/-- The bit that is set is set, and the others are as they were. -/
theorem get_set
    {row : BitRow}
    {position : Nat}
    (inRange : position / 8 < row.bytes.size)
    (other : Nat) :
    (row.set position).get other =
      (decide (other = position) || row.get other) := by
  have inByte : position % 8 < 8 := Nat.mod_lt position (by decide)
  rw [get_eq_any, get_eq_any, set, Array.getElem?_modify]
  by_cases sameByte : position / 8 = other / 8
  · have found := Array.getElem?_eq_getElem inRange
    rw [if_pos sameByte, ← sameByte, found, Option.map_some, Option.any_some,
      Option.any_some, UInt8.toBitVec_or, BitVec.getLsbD_or, toBitVec_bitMask,
      BitVec.getLsbD_twoPow]
    have same : position % 8 = other % 8 ↔ other = position := by
      omega
    simp only [inByte, same, decide_true, Bool.true_and]
    exact Bool.or_comm _ _
  · have differs : other ≠ position := by
      rintro rfl
      exact sameByte rfl
    rw [if_neg sameByte, decide_eq_false differs, Bool.false_or]

@[simp] theorem get_clear
    (length position : Nat) :
    (clear length).get position = false := by
  rw [get_eq_any, clear, Array.getElem?_replicate]
  split <;> simp

@[simp] theorem size_clear
    (length : Nat) :
    (clear length).bytes.size = length :=
  Array.size_replicate

/-- A full row has the bits of all its bytes. -/
theorem get_full
    {length position : Nat}
    (inRow : position / 8 < length) :
    (full length).get position = true := by
  have allSet :
      ∀ offset : Fin 8, (0xff : UInt8).toBitVec.getLsbD offset = true := by
    decide
  rw [get_eq_any, full, Array.getElem?_replicate, if_pos inRow,
    Option.any_some]
  exact allSet ⟨position % 8, Nat.mod_lt position (by decide)⟩

theorem size_union
    {left right : BitRow}
    (sameSize : left.bytes.size = right.bytes.size) :
    (left.union right).bytes.size = left.bytes.size := by
  rw [union, Array.size_zipWith, ← sameSize, Nat.min_self]

/-- The union of two rows of one length has the bits of both. -/
theorem get_union
    {left right : BitRow}
    (sameSize : left.bytes.size = right.bytes.size)
    (position : Nat) :
    (left.union right).get position =
      (left.get position || right.get position) := by
  rw [get_eq_any, get_eq_any, get_eq_any, union, Array.getElem?_zipWith]
  by_cases inLeft : position / 8 < left.bytes.size
  · have inRight : position / 8 < right.bytes.size := by
      rw [← sameSize]
      exact inLeft
    rw [Array.getElem?_eq_getElem inLeft, Array.getElem?_eq_getElem inRight,
      Option.any_some, Option.any_some, Option.any_some, UInt8.toBitVec_or,
      BitVec.getLsbD_or]
  · have notInRight : ¬position / 8 < right.bytes.size := by
      rw [← sameSize]
      exact inLeft
    rw [Array.getElem?_eq_none (Nat.le_of_not_lt inLeft),
      Array.getElem?_eq_none (Nat.le_of_not_lt notInRight)]
    rfl

/-- Rows of the same length with the same bits are the same. -/
theorem eq_of_get_eq
    {first second : BitRow}
    (sameSize : first.bytes.size = second.bytes.size)
    (sameBits : ∀ position, first.get position = second.get position) :
    first = second := by
  have sameBytes : first.bytes = second.bytes := by
    apply Array.ext sameSize
    intro index inFirst inSecond
    apply UInt8.toBitVec_inj.mp
    apply BitVec.eq_of_getLsbD_eq
    intro offset inByte
    have sameBit := sameBits (8 * index + offset)
    have byteOf : (8 * index + offset) / 8 = index := by
      omega
    have bitOf : (8 * index + offset) % 8 = offset := by
      omega
    rw [get_eq_any, get_eq_any, byteOf, bitOf,
      Array.getElem?_eq_getElem inFirst,
      Array.getElem?_eq_getElem inSecond] at sameBit
    exact sameBit
  cases first
  cases second
  exact congrArg BitRow.mk sameBytes

/-- The bits of a part are all set in a row. -/
def Includes
    (row part : BitRow) : Prop :=
  ∀ position, part.get position = true → row.get position = true

/-- A row that has the bits of another one is their union. -/
theorem Includes.union_eq
    {row part : BitRow}
    (includesPart : row.Includes part)
    (sameSize : row.bytes.size = part.bytes.size) :
    row.union part = row := by
  refine eq_of_get_eq (size_union sameSize) fun position => ?_
  rw [get_union sameSize, Bool.or_eq_left_iff_imp]
  exact includesPart position

/-- A row in which chosen ones of some positions are marked has their bits besides. -/
theorem exists_foldlM_mark
    {bits : Nat}
    {positions : List Nat}
    {chosen : Nat → Bool}
    {through : BitRow → Nat → Except Fault BitRow}
    (inRange : ∀ position ∈ positions, position < bits)
    (each :
      ∀ position ∈ positions, ∀ row : BitRow,
        row.bytes.size = byteCount bits →
          through row position =
            .ok (if chosen position then row.set position else row))
    {start : BitRow}
    (length : start.bytes.size = byteCount bits) :
    ∃ row,
      positions.foldlM through start = .ok row ∧
        row.bytes.size = byteCount bits ∧
        ∀ other,
          row.get other =
            (start.get other ||
              decide (other ∈ positions) && chosen other) := by
  induction positions generalizing start with
  | nil =>
      refine ⟨start, rfl, length, ?_⟩
      simp
  | cons position rest inductionHypothesis =>
      have positionInRange := inRange position List.mem_cons_self
      have inRow : position / 8 < start.bytes.size := by
        rw [length]
        exact div_lt_byteCount positionInRange
      have markedLength :
          (if chosen position then start.set position
            else start).bytes.size = byteCount bits := by
        split
        · rw [size_set, length]
        · exact length
      obtain ⟨row, marked, rowLength, bitsOf⟩ :=
        inductionHypothesis
          (fun other member => inRange other (List.mem_cons_of_mem _ member))
          (fun other member => each other (List.mem_cons_of_mem _ member))
          markedLength
      refine ⟨row, ?_, rowLength, ?_⟩
      · rw [List.foldlM_cons, each position List.mem_cons_self start length]
        exact marked
      · intro other
        rw [bitsOf other]
        cases isChosen : chosen position with
        | true =>
            rw [if_pos rfl, get_set inRow]
            by_cases same : other = position
            · subst same
              simp [isChosen]
            · simp [same]
        | false =>
            rw [if_neg Bool.false_ne_true]
            by_cases same : other = position
            · subst same
              simp [isChosen]
            · simp [same]

end BitRow

end LevelCollision
