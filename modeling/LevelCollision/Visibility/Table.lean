import LevelCollision.Visibility.RunLength

namespace LevelCollision

/-!
# Visibility tables

Each cluster has two rows: the clusters that can be seen from it and the clusters
that can be heard from it. A table holds the bytes of the visibility lump and, for
each cluster, where its two rows begin in them. Rows may share bytes and may run
into one another.
-/

/-- Which of the two rows of a cluster. -/
inductive Sense where
  | sight
  | hearing
  deriving DecidableEq, Repr

/-- Where the two rows of a cluster begin. -/
structure RowOffsets where
  sight : Nat
  hearing : Nat
  deriving DecidableEq, Repr

/-- Where one row of a cluster begins. -/
def RowOffsets.get
    (offsets : RowOffsets) :
    Sense → Nat
  | .sight => offsets.sight
  | .hearing => offsets.hearing

/-- The rows of all clusters, as they are stored. -/
structure VisibilityTable where
  bytes : List UInt8
  offsets : Array RowOffsets
  deriving DecidableEq

namespace VisibilityTable

/-- Number of clusters with rows. -/
def clusterCount
    (table : VisibilityTable) : Nat :=
  table.offsets.size

/-- The stored bytes from the beginning of a row onwards, if the row begins in them. -/
def stored?
    (table : VisibilityTable)
    (sense : Sense)
    (cluster : Nat) : Option (List UInt8) :=
  table.offsets[cluster]?.bind fun offsets =>
    if offsets.get sense ≤ table.bytes.length then
      some (table.bytes.drop (offsets.get sense))
    else
      none

end VisibilityTable

end LevelCollision
