import Mathlib.Algebra.Ring.Int.Defs
import Mathlib.Algebra.Ring.Nat
import LevelCollision.File.Level
import LevelCollision.Proofs.FieldBytes
import LevelCollision.Proofs.Readings

namespace LevelCollision

/-!
# Widths of fields

A reader of fields takes a fixed number of bytes, whatever they are, and what it makes
of them does not depend on the bytes behind. The layout of each kind of record takes
as many bytes as a record of that kind has, so that records which fill a lump are read
without running short. Numbers that are read are no larger than their bytes allow.
-/

namespace Fields

variable {α β : Type} {width more : Nat}
variable {fields : Fields α} {holds before : α → Prop}

/-- So many bytes are read whatever they are, to a result of which something holds. -/
def Reads
    (width : Nat)
    (holds : α → Prop)
    (fields : Fields α) : Prop :=
  ∀ front : List UInt8,
    front.length = width →
      ∃ result,
        holds result ∧
          ∀ rest, fields.run (front ++ rest) = some (result, rest)

namespace Reads

theorem pure
    {result : α}
    (holdsThere : holds result) :
    Reads 0 holds (Pure.pure result) := by
  intro front length
  obtain rfl := List.length_eq_zero_iff.mp length
  exact ⟨result, holdsThere, fun rest => rfl⟩

/-- Fields one after the other have the sum of their widths. -/
theorem bind
    {further : α → Fields β}
    {after : β → Prop}
    (first : Reads width before fields)
    (second : ∀ result, before result → Reads more after (further result)) :
    Reads (width + more) after (fields >>= further) := by
  intro front length
  have takenLength : (front.take width).length = width := by
    rw [List.length_take, length]
    exact Nat.min_eq_left (Nat.le_add_right width more)
  have droppedLength : (front.drop width).length = more := by
    rw [List.length_drop, length, Nat.add_sub_cancel_left]
  obtain ⟨middle, holdsMiddle, runFirst⟩ := first _ takenLength
  obtain ⟨result, holdsResult, runSecond⟩ :=
    second middle holdsMiddle _ droppedLength
  refine ⟨result, holdsResult, ?_⟩
  intro rest
  rw [← List.take_append_drop width front, List.append_assoc, StateT.run_bind,
    runFirst]
  exact runSecond rest

/-- What is read at the front of longer bytes is read there. -/
theorem run_take
    (reads : Reads width holds fields)
    {bytes : List UInt8}
    (enough : width ≤ bytes.length) :
    ∃ result,
      holds result ∧
        fields.run (bytes.take width) = some (result, []) ∧
        fields.run bytes = some (result, bytes.drop width) := by
  have length : (bytes.take width).length = width := by
    rw [List.length_take]
    exact Nat.min_eq_left enough
  obtain ⟨result, holdsResult, run⟩ := reads _ length
  refine ⟨result, holdsResult, ?_, ?_⟩
  · have alone := run []
    rwa [List.append_nil] at alone
  · have inFront := run (bytes.drop width)
    rwa [List.take_append_drop] at inFront

end Reads

theorem reads_word16 :
    Reads 2 (fun _ => True) word16 := by
  intro front length
  match front, length with
  | [low, high], _ =>
      exact ⟨combine16 low high, trivial, fun rest => rfl⟩

theorem reads_word32 :
    Reads 4 (fun _ => True) word32 :=
  reads_word16.bind fun _ _ => reads_word16.bind fun _ _ => .pure trivial

theorem reads_natural16 :
    Reads 2 (· < 2 ^ 16) natural16 :=
  reads_word16.bind fun word _ => .pure word.toNat_lt

theorem reads_integer16 :
    Reads 2 (fun number => -2 ^ 15 ≤ number ∧ number < 2 ^ 15) integer16 :=
  reads_word16.bind fun word _ =>
    .pure ⟨word.toInt16.le_toInt, word.toInt16.toInt_lt⟩

theorem reads_integer32 :
    Reads 4 (fun number => -2 ^ 31 ≤ number ∧ number < 2 ^ 31) integer32 :=
  reads_word32.bind fun word _ =>
    .pure ⟨word.toInt32.le_toInt, word.toInt32.toInt_lt⟩

theorem reads_scalar :
    Reads 4 (fun _ => True) scalar :=
  reads_word32.bind fun _ _ => .pure trivial

theorem reads_skip
    (count : Nat) :
    Reads count (fun _ => True) (skip count) := by
  intro front length
  exact ⟨(), trivial, run_skip length⟩

theorem reads_take
    (count : Nat) :
    Reads count (·.length = count) (take count) := by
  intro front length
  exact ⟨front, length, Fields.run_take length⟩

/-- As many bytes are taken as were asked for. -/
theorem length_of_run_take
    {count : Nat}
    {bytes taken rest : List UInt8}
    (run : (take count).run bytes = some (taken, rest)) :
    taken.length = count := by
  change
    (if (bytes.take count).length = count then
        some (bytes.take count, bytes.drop count)
      else
        none) =
      some (taken, rest) at run
  split at run
  · rename_i length
    cases run
    exact length
  · cases run

end Fields

namespace Reading

variable {α β : Type} {holds before : α → Prop}

/-- A reading ends in a value of which something holds, or in a refusal of what was read. -/
structure Ends
    (holds : α → Prop)
    (reading : Reading α) : Prop where
  value :
    ∀ result, reading.outcome = .ok result → holds result
  readable :
    ∀ cause, reading.outcome ≠ .error (.unreadable cause)

namespace Ends

theorem ne_unreadable
    {reading : Reading α}
    (ends : Ends holds reading)
    {error : LevelError}
    (refused : reading.outcome = .error error)
    (cause : String) :
    error ≠ .unreadable cause := by
  rintro rfl
  exact ends.readable cause refused

theorem pure
    {result : α}
    (holdsThere : holds result) :
    Ends holds (Pure.pure result) where
  value other same := by
    rw [outcome_pure, Except.ok.injEq] at same
    rw [← same]
    exact holdsThere
  readable _ same := by
    cases same

theorem bind
    {reading : Reading α}
    {next : α → Reading β}
    {after : β → Prop}
    (first : Ends before reading)
    (second : ∀ result, before result → Ends after (next result)) :
    Ends after (reading >>= next) := by
  constructor
  · intro result ends
    rw [outcome_bind, bind_eq_ok_iff] at ends
    obtain ⟨middle, endsFirst, endsSecond⟩ := ends
    exact (second middle (first.value middle endsFirst)).value result endsSecond
  · intro cause ends
    rw [outcome_bind, bind_eq_error_iff] at ends
    rcases ends with endsFirst | ⟨middle, endsFirst, endsSecond⟩
    · exact first.readable cause endsFirst
    · exact
        (second middle (first.value middle endsFirst)).readable cause endsSecond

theorem map
    {reading : Reading α}
    {transform : α → β}
    {after : β → Prop}
    (ends : Ends before reading)
    (mapped : ∀ result, before result → after (transform result)) :
    Ends after (transform <$> reading) :=
  ends.bind fun result holdsThere => .pure (mapped result holdsThere)

theorem refuse
    {error : LevelError}
    (readable : ∀ cause, error ≠ .unreadable cause) :
    Ends holds (Reading.refuse error) where
  value _ same := by
    cases same
  readable cause same := by
    rw [outcome_refuse, Except.error.injEq] at same
    exact readable cause same

theorem require
    {condition : Bool}
    {error : LevelError}
    (readable : ∀ cause, error ≠ .unreadable cause) :
    Ends (fun _ => condition = true) (Reading.require condition error) := by
  unfold Reading.require
  cases condition with
  | false =>
      exact refuse readable
  | true =>
      exact pure rfl

theorem note
    (notice : Notice) :
    Ends (fun _ => True) (Reading.note notice) where
  value _ _ := trivial
  readable _ same := by
    cases same

end Ends

end Reading

namespace Layout

theorem ends_reference
    {kind : Reference}
    {stored : Int}
    (bound : stored < 2 ^ 31) :
    (reference kind stored).Ends (· < 2 ^ 31) := by
  unfold reference
  refine (Reading.Ends.require (by simp)).bind fun _ isNatural => .pure ?_
  rw [decide_eq_true_eq] at isNatural
  omega

theorem ends_contents
    (word : UInt32) :
    (contents word).Ends (fun _ => True) := by
  unfold contents
  split
  · exact (Reading.Ends.note _).bind fun _ _ => .pure trivial
  · exact .pure trivial

/-- The position after a run can be told in a word of 64 bits. -/
def SmallSpan
    (span : Span) : Prop :=
  span.stop < 2 ^ 64

theorem smallSpan_of_lt
    {first count : Nat}
    (firstBound : first < 2 ^ 31)
    (countBound : count < 2 ^ 31) :
    SmallSpan ⟨first, count⟩ := by
  change first + count < 2 ^ 64
  omega

theorem reads_vector :
    Fields.Reads 12 (fun _ => True) vector :=
  Fields.reads_scalar.bind fun _ _ =>
    Fields.reads_scalar.bind fun _ _ =>
      Fields.reads_scalar.bind fun _ _ => .pure trivial

theorem reads_child :
    Fields.Reads 4 (fun _ => True) child :=
  Fields.reads_integer32.bind fun _ _ => .pure trivial

theorem reads_surface :
    Fields.Reads RecordKind.surface.size (Reading.Ends fun _ => True)
      surface :=
  (Fields.reads_skip 32).bind fun _ _ =>
    Fields.reads_integer32.bind fun _ _ =>
      Fields.reads_integer32.bind fun _ _ =>
        (Fields.reads_take 32).bind fun _ _ =>
          Fields.reads_integer32.bind fun _ _ => .pure (.pure trivial)

theorem reads_leaf :
    Fields.Reads RecordKind.leaf.size
      (Reading.Ends fun leaf => SmallSpan leaf.brushes) leaf := by
  refine
    Fields.reads_word32.bind fun word _ =>
      Fields.reads_integer16.bind fun cluster clusterBound =>
        Fields.reads_integer16.bind fun area areaBound =>
          (Fields.reads_skip 16).bind fun _ _ =>
            Fields.reads_natural16.bind fun first firstBound =>
              Fields.reads_natural16.bind fun count countBound => .pure ?_
  refine (ends_contents word).bind fun _ _ => ?_
  have small : SmallSpan ⟨first, count⟩ :=
    smallSpan_of_lt (by omega) (by omega)
  split
  · rw [pure_bind]
    exact (ends_reference (by omega)).bind fun _ _ => .pure small
  · have clusterEnds :
        ((some : Nat → Option Nat) <$>
            reference .leafCluster cluster).Ends (fun _ => True) :=
      (ends_reference (by omega)).map fun _ _ => trivial
    refine clusterEnds.bind fun _ _ => ?_
    exact (ends_reference (by omega)).bind fun _ _ => .pure small

theorem reads_leafBrush :
    Fields.Reads RecordKind.leafBrush.size (Reading.Ends fun _ => True)
      leafBrush :=
  Fields.reads_natural16.bind fun _ _ => .pure (.pure trivial)

theorem reads_plane
    (id : Nat) :
    Fields.Reads RecordKind.plane.size (Reading.Ends fun _ => True)
      (plane id) := by
  refine
    reads_vector.bind fun normal _ =>
      Fields.reads_scalar.bind fun dist _ =>
        Fields.reads_integer32.bind fun number _ => .pure ?_
  cases PlaneKind.ofNumber? number with
  | some kind =>
      exact .pure trivial
  | none =>
      exact .refuse (by simp)

theorem reads_brush :
    Fields.Reads RecordKind.brush.size
      (Reading.Ends fun brush => SmallSpan brush.sides) brush := by
  refine
    Fields.reads_integer32.bind fun first firstBound =>
      Fields.reads_integer32.bind fun count countBound =>
        Fields.reads_word32.bind fun word _ => .pure ?_
  refine (ends_contents word).bind fun _ _ => ?_
  refine (ends_reference firstBound.2).bind fun _ firstSmall => ?_
  refine (ends_reference countBound.2).bind fun _ countSmall => .pure ?_
  exact smallSpan_of_lt firstSmall countSmall

theorem reads_brushSide
    (surfaces : Nat) :
    Fields.Reads RecordKind.brushSide.size (Reading.Ends fun _ => True)
      (brushSide surfaces) := by
  refine
    Fields.reads_natural16.bind fun plane _ =>
      Fields.reads_integer16.bind fun stored _ => .pure ?_
  split
  · exact .pure trivial
  · exact
      (Reading.Ends.require (by simp)).bind fun _ _ => .pure trivial

theorem reads_model :
    Fields.Reads RecordKind.model.size (Reading.Ends fun _ => True) model :=
  reads_vector.bind fun _ _ =>
    reads_vector.bind fun _ _ =>
      reads_vector.bind fun _ _ =>
        reads_child.bind fun _ _ =>
          (Fields.reads_skip 8).bind fun _ _ => .pure (.pure trivial)

theorem reads_node :
    Fields.Reads RecordKind.node.size (Reading.Ends fun _ => True) node :=
  Fields.reads_integer32.bind fun _ planeBound =>
    reads_child.bind fun _ _ =>
      reads_child.bind fun _ _ =>
        (Fields.reads_skip 16).bind fun _ _ =>
          .pure ((ends_reference planeBound.2).bind fun _ _ => .pure trivial)

theorem reads_area :
    Fields.Reads RecordKind.area.size
      (Reading.Ends fun area => SmallSpan area.portals) area := by
  refine
    Fields.reads_integer32.bind fun count countBound =>
      Fields.reads_integer32.bind fun first firstBound => .pure ?_
  refine (ends_reference firstBound.2).bind fun _ firstSmall => ?_
  refine (ends_reference countBound.2).bind fun _ countSmall => .pure ?_
  exact smallSpan_of_lt firstSmall countSmall

theorem reads_areaPortal :
    Fields.Reads RecordKind.areaPortal.size (Reading.Ends fun _ => True)
      areaPortal :=
  Fields.reads_integer32.bind fun _ numberBound =>
    Fields.reads_integer32.bind fun _ otherBound =>
      .pure
        ((ends_reference numberBound.2).bind fun _ _ =>
          (ends_reference otherBound.2).bind fun _ _ => .pure trivial)

theorem ends_rowOffset
    (lumpSize cluster : Nat)
    (stored : Int) :
    (rowOffset lumpSize cluster stored).Ends (fun _ => True) :=
  (Reading.Ends.require (by simp)).bind fun _ _ => .pure trivial

theorem reads_rowOffsets
    (lumpSize cluster : Nat) :
    Fields.Reads rowOffsetsSize (Reading.Ends fun _ => True)
      (rowOffsets lumpSize cluster) :=
  Fields.reads_integer32.bind fun _ _ =>
    Fields.reads_integer32.bind fun _ _ =>
      .pure
        ((ends_rowOffset lumpSize cluster _).bind fun _ _ =>
          (ends_rowOffset lumpSize cluster _).bind fun _ _ => .pure trivial)

end Layout

namespace LumpTable

/-- A lump lies in a file of this size, at numbers that words of 32 bits can tell. -/
def Inside
    (fileSize : Nat)
    (span : Nat × Nat) : Prop :=
  span.1 + span.2 ≤ fileSize ∧ span.1 < 2 ^ 31 ∧ span.2 < 2 ^ 31

theorem reads_entry
    (fileSize : Nat)
    (id : LumpId) :
    Fields.Reads entrySize (Reading.Ends (Inside fileSize))
      (entry fileSize id) := by
  refine
    Fields.reads_integer32.bind fun offset offsetBound =>
      Fields.reads_integer32.bind fun size sizeBound => .pure ?_
  refine (Reading.Ends.require (by simp)).bind fun _ inside => .pure ?_
  rw [decide_eq_true_eq] at inside
  unfold Inside
  omega

end LumpTable

end LevelCollision
