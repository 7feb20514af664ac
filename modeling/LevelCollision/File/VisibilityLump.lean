import LevelCollision.File.Reading
import LevelCollision.Visibility.Table

namespace LevelCollision

/-!
# The visibility lump

The lump begins with the number of clusters and, for each of them, the offsets in
the lump at which its rows begin. The rows fill the rest of it. An offset may lie
anywhere in the lump.
-/

namespace Layout

/-- Bytes of the number of clusters. -/
def clusterCountSize : Nat := 4

/-- Bytes of the two offsets of a cluster. -/
def rowOffsetsSize : Nat := 8

/-- A refusal of the lump. -/
def flawed
    {α : Type}
    (flaw : VisibilityFlaw) : Reading α :=
  .refuse (.badVisibility flaw)

/-- An offset that lies in the lump. -/
def rowOffset
    (lumpSize cluster : Nat)
    (stored : Int) : Reading Nat := do
  Reading.require (decide (0 ≤ stored ∧ stored < lumpSize))
    (.badVisibility (.offsetOutOfRange cluster stored))
  return stored.toNat

/-- The two offsets of a cluster. -/
def rowOffsets
    (lumpSize cluster : Nat) : Fields (Reading RowOffsets) := do
  let sight ← Fields.integer32
  let hearing ← Fields.integer32
  return do
    let sight ← rowOffset lumpSize cluster sight
    let hearing ← rowOffset lumpSize cluster hearing
    return { sight := sight, hearing := hearing }

/-- The visibility lump. -/
def visibilityTable
    (bytes : List UInt8) : Reading VisibilityTable := do
  let size := bytes.length
  if size < clusterCountSize then
    flawed (.tooSmall size)
  else
    let count ← Reading.ofFields Fields.integer32 bytes
    if count < 0 then
      flawed (.negativeClusterCount count)
    else
      let clusters := count.toNat
      if size < clusterCountSize + clusters * rowOffsetsSize then
        flawed (.clustersDoNotFit clusters size)
      else
        let offsets ←
          Reading.records rowOffsetsSize clusters (rowOffsets size)
            (bytes.drop clusterCountSize)
        return { bytes := bytes, offsets := offsets }

end Layout

end LevelCollision
