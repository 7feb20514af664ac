import Mathlib.Algebra.Ring.Nat
import LevelCollision.File.Fields

namespace LevelCollision

/-!
# The bytes of fields

A number is stored with its lowest byte first. What is stored that way is read back
as it was, and exactly its bytes are taken from those that follow.
-/

/-- The lowest bytes of a number, the lowest one first. -/
def littleEndian : Nat → Nat → List UInt8
  | 0, _ => []
  | count + 1, number =>
      UInt8.ofNat number :: littleEndian count (number / 256)

@[simp] theorem length_littleEndian
    (count number : Nat) :
    (littleEndian count number).length = count := by
  induction count generalizing number with
  | zero =>
      rfl
  | succ count inductionHypothesis =>
      simp [littleEndian, inductionHypothesis]

/-- The two bytes of a word. -/
def bytes16
    (word : UInt16) : List UInt8 :=
  littleEndian 2 word.toNat

/-- The four bytes of a word. -/
def bytes32
    (word : UInt32) : List UInt8 :=
  littleEndian 4 word.toNat

@[simp] theorem length_bytes16
    (word : UInt16) :
    (bytes16 word).length = 2 :=
  length_littleEndian 2 _

@[simp] theorem length_bytes32
    (word : UInt32) :
    (bytes32 word).length = 4 :=
  length_littleEndian 4 _

namespace Fields

/-- Bits that are shifted over others count as much more as the others have room. -/
theorem or_shiftLeft_mod
    {width low high : Nat}
    (lowBound : low < 2 ^ width)
    (highBound : high < 2 ^ width) :
    low ||| high <<< width % 2 ^ (width + width) = low + 2 ^ width * high := by
  have shifted : high <<< width < 2 ^ (width + width) := by
    rw [Nat.shiftLeft_eq, Nat.pow_add]
    exact Nat.mul_lt_mul_of_pos_right highBound (Nat.two_pow_pos width)
  calc low ||| high <<< width % 2 ^ (width + width)
      = high <<< width ||| low := by
        rw [Nat.mod_eq_of_lt shifted, Nat.or_comm]
    _ = high <<< width + low :=
        (Nat.shiftLeft_add_eq_or_of_lt lowBound high).symm
    _ = low + 2 ^ width * high := by
        rw [Nat.shiftLeft_eq, Nat.add_comm, Nat.mul_comm]

/-- Of two bytes the second counts 256 times as much. -/
theorem toNat_combine16
    (low high : UInt8) :
    (combine16 low high).toNat = low.toNat + 256 * high.toNat := by
  have combined := or_shiftLeft_mod low.toNat_lt high.toNat_lt
  simpa [combine16] using combined

/-- Of two words the second counts 65536 times as much. -/
theorem toNat_combine32
    (low high : UInt16) :
    (combine32 low high).toNat = low.toNat + 65536 * high.toNat := by
  have combined := or_shiftLeft_mod low.toNat_lt high.toNat_lt
  simpa [combine32] using combined

@[simp] theorem run_word16
    (word : UInt16)
    (rest : List UInt8) :
    word16.run (bytes16 word ++ rest) = some (word, rest) := by
  have same :
      combine16 (UInt8.ofNat word.toNat) (UInt8.ofNat (word.toNat / 256)) =
        word := by
    apply UInt16.toNat_inj.mp
    have bound := word.toNat_lt
    rw [toNat_combine16, UInt8.toNat_ofNat', UInt8.toNat_ofNat']
    omega
  change some (combine16 _ _, rest) = some (word, rest)
  rw [same]

/-- The bytes of a long word are those of its lower and its upper half. -/
theorem bytes32_eq
    (word : UInt32) :
    bytes32 word =
      bytes16 (UInt16.ofNat word.toNat) ++
        bytes16 (UInt16.ofNat (word.toNat / 65536)) := by
  have lower : word.toNat % 65536 % 256 = word.toNat % 256 := by
    omega
  have second : word.toNat % 65536 / 256 % 256 = word.toNat / 256 % 256 := by
    omega
  have third : word.toNat / 65536 % 65536 % 256 =
      word.toNat / 256 / 256 % 256 := by
    omega
  have fourth : word.toNat / 65536 % 65536 / 256 % 256 =
      word.toNat / 256 / 256 / 256 % 256 := by
    omega
  simp [bytes32, bytes16, littleEndian, ← UInt8.toNat_inj, lower, second,
    third, fourth]

@[simp] theorem run_word32
    (word : UInt32)
    (rest : List UInt8) :
    word32.run (bytes32 word ++ rest) = some (word, rest) := by
  have same :
      combine32 (UInt16.ofNat word.toNat)
          (UInt16.ofNat (word.toNat / 65536)) =
        word := by
    apply UInt32.toNat_inj.mp
    have bound := word.toNat_lt
    rw [toNat_combine32, UInt16.toNat_ofNat', UInt16.toNat_ofNat']
    omega
  simpa [word32, bytes32_eq] using same

@[simp] theorem run_natural16
    (word : UInt16)
    (rest : List UInt8) :
    natural16.run (bytes16 word ++ rest) = some (word.toNat, rest) := by
  simp [natural16]

@[simp] theorem run_integer16
    (number : Int16)
    (rest : List UInt8) :
    integer16.run (bytes16 number.toUInt16 ++ rest) =
      some (number.toInt, rest) := by
  simp [integer16]

@[simp] theorem run_integer32
    (number : Int32)
    (rest : List UInt8) :
    integer32.run (bytes32 number.toUInt32 ++ rest) =
      some (number.toInt, rest) := by
  simp [integer32]

/-- Any four bytes are read as some number. -/
theorem run_integer32_of_length
    {four : List UInt8}
    (length : four.length = 4)
    (rest : List UInt8) :
    ∃ number, integer32.run (four ++ rest) = some (number, rest) := by
  match four, length with
  | [_, _, _, _], _ =>
      exact ⟨_, rfl⟩

@[simp] theorem run_scalar
    (word : UInt32)
    (rest : List UInt8) :
    scalar.run (bytes32 word ++ rest) =
      some (Float32.ofBits word, rest) := by
  simp [scalar]

/-!
What was read comes from the bytes that store it.
-/

theorem bytes16_combine16
    (low high : UInt8) :
    bytes16 (combine16 low high) = [low, high] := by
  have lowBound := low.toNat_lt
  have highBound := high.toNat_lt
  have first : (combine16 low high).toNat % 256 = low.toNat := by
    rw [toNat_combine16]
    omega
  have second : (combine16 low high).toNat / 256 % 256 = high.toNat := by
    rw [toNat_combine16]
    omega
  simp [bytes16, littleEndian, ← UInt8.toNat_inj, first, second]

theorem bytes32_combine32
    (low high : UInt16) :
    bytes32 (combine32 low high) = bytes16 low ++ bytes16 high := by
  have lowBound := low.toNat_lt
  have highBound := high.toNat_lt
  have first : UInt16.ofNat (combine32 low high).toNat = low := by
    apply UInt16.toNat_inj.mp
    rw [toNat_combine32, UInt16.toNat_ofNat']
    omega
  have second :
      UInt16.ofNat ((combine32 low high).toNat / 65536) = high := by
    apply UInt16.toNat_inj.mp
    rw [toNat_combine32, UInt16.toNat_ofNat']
    omega
  rw [bytes32_eq, first, second]

/-- A signed number that was read is stored in front of the bytes behind it. -/
theorem exists_of_run_integer32
    {bytes rest : List UInt8}
    {number : Int}
    (run : integer32.run bytes = some (number, rest)) :
    ∃ stored : Int32,
      stored.toInt = number ∧ bytes = bytes32 stored.toUInt32 ++ rest := by
  match bytes, run with
  | first :: second :: third :: fourth :: rest, rfl =>
      refine
        ⟨(combine32 (combine16 first second)
          (combine16 third fourth)).toInt32, rfl, ?_⟩
      rw [UInt32.toUInt32_toInt32, bytes32_combine32, bytes16_combine16,
        bytes16_combine16]
      rfl

/-!
A field at the very end of a record has no bytes after it.
-/

@[simp] theorem run_natural16_last
    (word : UInt16) :
    natural16.run (bytes16 word) = some (word.toNat, []) := by
  simpa using run_natural16 word []

@[simp] theorem run_integer16_last
    (number : Int16) :
    integer16.run (bytes16 number.toUInt16) = some (number.toInt, []) := by
  simpa using run_integer16 number []

@[simp] theorem run_integer32_last
    (number : Int32) :
    integer32.run (bytes32 number.toUInt32) = some (number.toInt, []) := by
  simpa using run_integer32 number []

@[simp] theorem run_word32_last
    (word : UInt32) :
    word32.run (bytes32 word) = some (word, []) := by
  simpa using run_word32 word []

/-- Bytes without a meaning are passed over, whatever they are. -/
theorem run_skip
    {count : Nat}
    {skipped : List UInt8}
    (length : skipped.length = count)
    (rest : List UInt8) :
    (skip count).run (skipped ++ rest) = some ((), rest) := by
  subst length
  simp [skip, StateT.run]

/-- A number of bytes is taken as it is. -/
theorem run_take
    {count : Nat}
    {taken : List UInt8}
    (length : taken.length = count)
    (rest : List UInt8) :
    (take count).run (taken ++ rest) = some (taken, rest) := by
  subst length
  simp [take, StateT.run]

end Fields

end LevelCollision
