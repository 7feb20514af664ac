namespace LevelCollision

/-!
# Rows of bits

Sets of clusters and sets of areas are rows of bits, packed eight to a byte with
the lowest bit first. A row has as many bytes as its bits need; the bits past the
last one in its last byte belong to nobody.
-/

/-- A row of bits, packed into bytes. -/
structure BitRow where
  bytes : Array UInt8
  deriving DecidableEq

namespace BitRow

/-- Number of bytes that hold this many bits. -/
def byteCount
    (bits : Nat) : Nat :=
  (bits + 7) / 8

/-- The byte in which only the bit of a position is set. -/
def bitMask
    (position : Nat) : UInt8 :=
  1 <<< UInt8.ofNat (position % 8)

/-- The row of this many bytes with no bit set. -/
def clear
    (length : Nat) : BitRow where
  bytes := Array.replicate length 0

/-- The row of this many bytes with every bit set. -/
def full
    (length : Nat) : BitRow where
  bytes := Array.replicate length 0xff

/-- Whether the bit at a position is set; no bit is set outside the row. -/
def get
    (row : BitRow)
    (position : Nat) : Bool :=
  match row.bytes[position / 8]? with
  | some byte =>
      byte &&& bitMask position != 0
  | none =>
      false

/-- The row with the bit at a position set, if the row has such a bit. -/
def set
    (row : BitRow)
    (position : Nat) : BitRow where
  bytes := row.bytes.modify (position / 8) (· ||| bitMask position)

/-- The bits set in either of two rows, over the bytes that both have. -/
def union
    (left right : BitRow) : BitRow where
  bytes := Array.zipWith (· ||| ·) left.bytes right.bytes

end BitRow

end LevelCollision
