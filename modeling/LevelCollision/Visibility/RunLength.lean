import LevelCollision.Notice
import LevelCollision.Visibility.BitRow

namespace LevelCollision

/-!
# Run-length rows

Visibility rows are stored with their runs of zero bytes shortened. A nonzero byte
stands for itself. A zero byte is followed by a count and stands for that many
zero bytes.

A row is expanded to a length that is known beforehand. What the stored bytes hold
past that length is ignored, and what they lack is filled with zeros. Both leave a
notice unless the stored tokens make up the length exactly.
-/

namespace RunLength

/-- How the stored bytes of a row met its length. -/
inductive Ending where
  /-- Some of the stored tokens make up the length. -/
  | exact
  /-- The stored bytes ran out first. -/
  | early
  /-- A run of zeros went past the length. -/
  | overrun
  deriving DecidableEq, Repr

/-- What an ending is worth noticing. -/
def Ending.notices : Ending → List Notice
  | .exact => []
  | .early => [.rowEndsEarly]
  | .overrun => [.rowOverrun]

/-- Expand stored bytes behind those already written, up to a length. -/
def expandOnto
    (length : Nat)
    (written : Array UInt8)
    (stored : List UInt8) : Array UInt8 × Ending :=
  if length ≤ written.size then
    (written, .exact)
  else
    match stored with
    | [] =>
        (written, .early)
    | byte :: rest =>
        if byte ≠ 0 then
          expandOnto length (written.push byte) rest
        else
          match rest with
          | [] =>
              (written, .early)
          | count :: further =>
              if length < written.size + count.toNat then
                (written, .overrun)
              else
                expandOnto length
                  (written ++ Array.replicate count.toNat 0) further

/-- The bytes followed by zeros up to a length. -/
def padTo
    (length : Nat)
    (written : Array UInt8) : Array UInt8 :=
  written ++ Array.replicate (length - written.size) 0

/-- The row of a length that stored bytes stand for. -/
def expand
    (stored : List UInt8)
    (length : Nat) : Logged BitRow :=
  let (written, ending) := expandOnto length #[] stored
  { value := ⟨padTo length written⟩
    notices := ending.notices }

end RunLength

end LevelCollision
