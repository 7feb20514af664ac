import LevelCollision.Level.Basic

namespace LevelCollision

/-!
# Valid levels

The records of a level name one another by position. Before a level is made of
them, every one of these positions has to be that of a record, the first leaf has
to be solid, another leaf has to be empty, and there has to be room for a box hull.

Each check answers with the first error it finds, in the order of the records.
-/

namespace Records

/-- The error of a position that no record has. -/
def indexViolation?
    (reference : Reference)
    (index count : Nat) : Option LevelError :=
  if index < count then none else some (.badIndex reference index count)

/-- The error of a run of positions that goes past the last record. -/
def spanViolation?
    (reference : Reference)
    (span : Span)
    (count : Nat) : Option LevelError :=
  if span.stop ≤ count then
    none
  else
    some (.badIndex reference span.stop count)

variable {S : Type}

/-- The error of a child. -/
def childViolation?
    (records : Records S) :
    Child → Option LevelError
  | .node id => indexViolation? .node id records.nodes.size
  | .leaf id => indexViolation? .leaf id records.leaves.size

/-- The first error of a leaf. -/
def leafViolation?
    (records : Records S)
    (clusterCount : Nat)
    (leaf : Leaf) : Option LevelError :=
  (spanViolation? .leafBrush leaf.brushes records.leafBrushes.size).or <|
    (leaf.cluster.bind fun cluster =>
        indexViolation? .cluster cluster clusterCount).or <|
      indexViolation? .area leaf.area records.areas.size

/-- The first error of a node. -/
def nodeViolation?
    (records : Records S)
    (node : Node) : Option LevelError :=
  (indexViolation? .plane node.plane records.planes.size).or <|
    (records.childViolation? node.front).or <|
      records.childViolation? node.back

/-- The error of a portal number. Numbers begin at one, and zero is unused. -/
def portalNumberViolation?
    (records : Records S)
    (number : Nat) : Option LevelError :=
  if number ≤ records.areaPortals.size then
    none
  else
    some (.badIndex .portalNumber number records.areaPortals.size)

/-- The first error of an area portal. -/
def areaPortalViolation?
    (records : Records S)
    (portal : AreaPortal) : Option LevelError :=
  (records.portalNumberViolation? portal.number).or <|
    indexViolation? .area portal.otherArea records.areas.size

/-- The first position that names no record. -/
def violation?
    (records : Records S)
    (clusterCount : Nat) : Option LevelError :=
  (records.leaves.findSome? (records.leafViolation? clusterCount)).or <|
    (records.leafBrushes.findSome? fun brush =>
        indexViolation? .brush brush records.brushes.size).or <|
      (records.brushes.findSome? fun brush =>
          spanViolation? .brushSide brush.sides records.brushSides.size).or <|
        (records.brushSides.findSome? fun side =>
            indexViolation? .plane side.plane records.planes.size).or <|
          (records.models.findSome? fun model =>
              records.childViolation? model.head).or <|
            (records.nodes.findSome? records.nodeViolation?).or <|
              (records.areas.findSome? fun area =>
                  spanViolation? .areaPortal area.portals
                    records.areaPortals.size).or <|
                records.areaPortals.findSome? records.areaPortalViolation?

/-- Whether the first leaf is solid and nothing else. -/
def outsideIsSolid
    (records : Records S) : Bool :=
  records.leaves[0]?.any fun leaf => decide (leaf.contents = .solid)

/-- The first empty leaf after the first leaf. -/
def emptyLeaf?
    (records : Records S) : Option Nat :=
  (records.leaves.toList.tail.findIdx? (·.contents.isEmpty)).map (· + 1)

end Records

/-- The level of these records, or the first reason why they make none. -/
def Level.ofRecords
    {S : Type} [Scalar S]
    (own : Records S)
    (visibility : Option VisibilityTable)
    (clusterCount : Nat)
    (entityBytes : List UInt8)
    (fileSize : Nat) : Except LevelError (Level S) :=
  match own.violation? clusterCount with
  | some error =>
      .error error
  | none =>
      if !own.outsideIsSolid then
        .error .badLeafZero
      else
        match own.emptyLeaf? with
        | none =>
            .error .noEmptyLeaf
        | some emptyLeaf =>
            if !BoxHull.fits own then
              .error .noBoxHullRoom
            else
              .ok
                { own := own
                  emptyLeaf := emptyLeaf
                  visibility := visibility
                  clusterCount := clusterCount
                  entityBytes := entityBytes
                  fileSize := fileSize }

end LevelCollision
