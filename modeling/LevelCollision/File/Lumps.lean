import LevelCollision.File.Reading
import LevelCollision.Level.LumpId

namespace LevelCollision

/-!
# The lumps of a file

A file begins with an identifier, a version and a table that gives the offset and
the size of each lump. A lump may lie anywhere in the file, and lumps may overlap.
-/

/-- Where the lumps of a file lie, and its bytes. -/
structure LumpTable where
  bytes : List UInt8
  spans : Vector (Nat × Nat) LumpId.count

namespace LumpTable

/-- The identifier that a file begins with. -/
def ident : UInt32 := 0x50534249

/-- The versions of files that can be read. -/
def versions : List Int := [38, 69]

/-- Bytes of the identifier and the version. -/
def markSize : Nat := 8

/-- Bytes of an entry of the table. -/
def entrySize : Nat := 8

/-- Bytes before the first byte that a lump can have to itself. -/
def headerSize : Nat :=
  markSize + LumpId.count * entrySize

/-- Size of a lump in bytes. -/
def size
    (table : LumpTable)
    (id : LumpId) : Nat :=
  (table.spans.get id.index).2

/-- The bytes of a lump. -/
def lump
    (table : LumpTable)
    (id : LumpId) : List UInt8 :=
  let (offset, size) := table.spans.get id.index
  (table.bytes.drop offset).take size

/-- An entry of the table, which has to lie in the file. -/
def entry
    (fileSize : Nat)
    (id : LumpId) : Fields (Reading (Nat × Nat)) := do
  let offset ← Fields.integer32
  let size ← Fields.integer32
  return do
    Reading.require
      (decide (0 ≤ offset ∧ 0 ≤ size ∧ offset + size ≤ fileSize))
      (.lumpOutOfBounds id offset size fileSize)
    return (offset.toNat, size.toNat)

/-- The bytes of the entry of a lump. -/
def entryBytes
    (bytes : List UInt8)
    (id : LumpId) : List UInt8 :=
  bytes.drop (markSize + id.index * entrySize)

/-- The table of a file. -/
def read
    (bytes : List UInt8) : Reading LumpTable := do
  let fileSize := bytes.length
  Reading.require (decide (headerSize ≤ fileSize))
    (.lumpOutOfBounds .entities 0 headerSize fileSize)
  let mark ← Reading.ofFields Fields.word32 bytes
  Reading.require (mark == ident) (.badMagic mark)
  let version ← Reading.ofFields Fields.integer32 (bytes.drop 4)
  Reading.require (versions.contains version) (.unsupportedVersion version)
  let spans ←
    LumpId.all.mapM fun id =>
      Reading.flatten (Reading.ofFields (entry fileSize id) (entryBytes bytes id))
  return { bytes := bytes, spans := spans }

end LumpTable

end LevelCollision
