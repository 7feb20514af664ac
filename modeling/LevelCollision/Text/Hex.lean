namespace LevelCollision

/-!
# Hexadecimal numerals

Words in messages are written with a `0x` marker and lower-case digits, either
with as few digits as they need or with all eight digits of a 32-bit word.
-/

namespace Hex

/-- Lower-case hexadecimal digits of a number. -/
def digits
    (value : Nat) : List Char :=
  Nat.toDigits 16 value

/-- A word with as few digits as it needs. -/
def short
    (word : UInt32) : String :=
  "0x" ++ String.ofList (digits word.toNat)

/-- A word with its eight digits. -/
def full
    (word : UInt32) : String :=
  let written := digits word.toNat
  "0x" ++ String.ofList (List.replicate (8 - written.length) '0' ++ written)

end Hex

end LevelCollision
