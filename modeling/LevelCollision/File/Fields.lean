namespace LevelCollision

/-!
# Binary fields

A record is read field by field from a list of bytes. Numbers are little-endian and
of fixed width. A reader fails only if too few bytes are left.
-/

/-- A reader of fields: what it read, and the bytes after it. -/
abbrev Fields :=
  StateT (List UInt8) Option

namespace Fields

/-- The word of two bytes, the lower one first. -/
def combine16
    (low high : UInt8) : UInt16 :=
  low.toUInt16 ||| high.toUInt16 <<< 8

/-- The word of two words, the lower one first. -/
def combine32
    (low high : UInt16) : UInt32 :=
  low.toUInt32 ||| high.toUInt32 <<< 16

/-- Two bytes as a word. -/
def word16 : Fields UInt16 :=
  fun bytes =>
    match bytes with
    | low :: high :: rest => some (combine16 low high, rest)
    | _ => none

/-- Four bytes as a word. -/
def word32 : Fields UInt32 := do
  let low ← word16
  let high ← word16
  return combine32 low high

/-- Two bytes as an unsigned number. -/
def natural16 : Fields Nat := do
  let word ← word16
  return word.toNat

/-- Two bytes as a signed number. -/
def integer16 : Fields Int := do
  let word ← word16
  return word.toInt16.toInt

/-- Four bytes as a signed number. -/
def integer32 : Fields Int := do
  let word ← word32
  return word.toInt32.toInt

/-- Four bytes as a binary scalar. -/
def scalar : Fields Float32 := do
  let word ← word32
  return Float32.ofBits word

/-- Bytes whose meaning does not matter here; there may be fewer of them. -/
def skip
    (count : Nat) : Fields Unit :=
  fun bytes => some ((), bytes.drop count)

/-- A number of bytes. -/
def take
    (count : Nat) : Fields (List UInt8) :=
  fun bytes =>
    let taken := bytes.take count
    if taken.length = count then some (taken, bytes.drop count) else none

end Fields

end LevelCollision
