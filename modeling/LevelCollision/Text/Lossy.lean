namespace LevelCollision

/-!
# Reading text from bytes

Entity texts and surface names are UTF-8, but a file may hold any bytes. Reading
never fails: each longest run of bytes that begins a character and does not
complete it becomes one replacement character.

The bytes that may follow the first byte of a character depend on it, so that no
character is written with more bytes than it needs, none is a surrogate, and none
lies past the last code point.
-/

namespace Lossy

/-- What an unreadable run of bytes becomes. -/
def replacement : Char := '\uFFFD'

/-- Whether a byte continues a character. -/
def isContinuation
    (byte : UInt8) : Bool :=
  0x80 ≤ byte && byte ≤ 0xbf

/-- Whether a byte may be the second one after this first byte of three. -/
def secondOfThree
    (first second : UInt8) : Bool :=
  if first == 0xe0 then
    0xa0 ≤ second && second ≤ 0xbf
  else if first == 0xed then
    0x80 ≤ second && second ≤ 0x9f
  else
    isContinuation second

/-- Whether a byte may be the second one after this first byte of four. -/
def secondOfFour
    (first second : UInt8) : Bool :=
  if first == 0xf0 then
    0x90 ≤ second && second ≤ 0xbf
  else if first == 0xf4 then
    0x80 ≤ second && second ≤ 0x8f
  else
    isContinuation second

/-- The six bits that a continuation byte carries. -/
def payload
    (byte : UInt8) : Nat :=
  byte.toNat % 64

/--
The character that begins with a byte, and how many of the following bytes belong
to it.
-/
def decodeFrom
    (first : UInt8)
    (rest : List UInt8) : Char × Nat :=
  if first < 0x80 then
    (Char.ofNat first.toNat, 0)
  else if 0xc2 ≤ first && first ≤ 0xdf then
    match rest with
    | second :: _ =>
        if isContinuation second then
          (Char.ofNat (first.toNat % 32 * 64 + payload second), 1)
        else
          (replacement, 0)
    | [] =>
        (replacement, 0)
  else if 0xe0 ≤ first && first ≤ 0xef then
    match rest with
    | second :: third :: _ =>
        if !secondOfThree first second then
          (replacement, 0)
        else if isContinuation third then
          (Char.ofNat
              ((first.toNat % 16 * 64 + payload second) * 64 + payload third),
            2)
        else
          (replacement, 1)
    | [second] =>
        (replacement, if secondOfThree first second then 1 else 0)
    | [] =>
        (replacement, 0)
  else if 0xf0 ≤ first && first ≤ 0xf4 then
    match rest with
    | second :: third :: fourth :: _ =>
        if !secondOfFour first second then
          (replacement, 0)
        else if !isContinuation third then
          (replacement, 1)
        else if isContinuation fourth then
          (Char.ofNat
              (((first.toNat % 8 * 64 + payload second) * 64 +
                payload third) * 64 + payload fourth),
            3)
        else
          (replacement, 2)
    | [second, third] =>
        (replacement,
          if !secondOfFour first second then 0
          else if isContinuation third then 2
          else 1)
    | [second] =>
        (replacement, if secondOfFour first second then 1 else 0)
    | [] =>
        (replacement, 0)
  else
    (replacement, 0)

/-- The characters of the bytes, after those already read in reverse order. -/
def decodeOnto
    (read : List Char) :
    List UInt8 → List Char
  | [] =>
      read.reverse
  | first :: rest =>
      let (character, further) := decodeFrom first rest
      decodeOnto (character :: read) (rest.drop further)
termination_by bytes => bytes.length
decreasing_by
  simp only [List.length_drop, List.length_cons]
  omega

/-- The text of a list of bytes. -/
def decode
    (bytes : List UInt8) : String :=
  String.ofList (decodeOnto [] bytes)

/-- The text of the bytes before the first zero byte, or of all of them. -/
def decodeToZero
    (bytes : List UInt8) : String :=
  decode (bytes.takeWhile (· != 0))

end Lossy

end LevelCollision
