import LevelCollision.Level.RecordKind
import LevelCollision.Text.Hex

namespace LevelCollision

/-!
# Refused levels

`LevelError` lists the reasons for which a file is no level, and the one for which
a name is no model of a level. `Fault` lists the ways in which a query can ask for
something that the level does not have. An answer that was not given carries one
or the other.
-/

/-- What a level counts and bounds. -/
inductive Counted where
  | records (kind : RecordKind)
  | visibilityBytes
  | entityTextBytes
  deriving DecidableEq, Repr

/-- Name of what is counted, in messages. -/
def Counted.label : Counted → String
  | .records kind => kind.plural
  | .visibilityBytes => "visibility bytes"
  | .entityTextBytes => "entity string bytes"

/-- A number in a record that names another record. -/
inductive Reference where
  | leafCluster
  | leafArea
  | leafBrush
  | cluster
  | area
  | brush
  | brushSide
  | brushSideSurface
  | plane
  | nodePlane
  | node
  | leaf
  | areaPortal
  | portalNumber
  deriving DecidableEq, Repr

/-- Name of a reference in messages. -/
def Reference.label : Reference → String
  | .leafCluster => "leaf cluster"
  | .leafArea => "leaf area"
  | .leafBrush => "leaf brush"
  | .cluster => "cluster"
  | .area => "area"
  | .brush => "brush"
  | .brushSide => "brush side"
  | .brushSideSurface => "brush side surface"
  | .plane => "plane"
  | .nodePlane => "node plane"
  | .node => "node"
  | .leaf => "leaf"
  | .areaPortal => "area portal"
  | .portalNumber => "portal number"

/-- What is wrong with a visibility lump. -/
inductive VisibilityFlaw where
  /-- The lump has no room for the number of clusters. -/
  | tooSmall (bytes : Nat)
  | negativeClusterCount (count : Int)
  /-- The lump has no room for two offsets per cluster. -/
  | clustersDoNotFit (clusters bytes : Nat)
  /-- An offset does not lie in the lump. -/
  | offsetOutOfRange (cluster : Nat) (offset : Int)
  deriving DecidableEq, Repr

/-- The words for a flaw of the visibility lump. -/
def VisibilityFlaw.reason : VisibilityFlaw → String
  | .tooSmall bytes =>
      s!"lump too small ({bytes} bytes)"
  | .negativeClusterCount count =>
      s!"negative cluster count {count}"
  | .clustersDoNotFit clusters bytes =>
      s!"{clusters} clusters do not fit in {bytes} bytes"
  | .offsetOutOfRange cluster offset =>
      s!"cluster {cluster} offset {offset} out of range"

/-- A reason to refuse a file, or the name of a model. -/
inductive LevelError where
  /-- The bytes of the file could not be had; the cause says why. -/
  | unreadable (cause : String)
  | badMagic (ident : UInt32)
  | unsupportedVersion (version : Int)
  | lumpOutOfBounds (lump : LumpId) (offset size : Int) (fileSize : Nat)
  | badLumpSize (lump : LumpId) (size recordSize : Nat)
  | tooMany (what : Counted) (count limit : Nat)
  | missing (kind : RecordKind)
  | badIndex (reference : Reference) (index : Int) (count : Nat)
  | badPlaneKind (plane : Nat) (number : Int)
  /-- The first leaf is not exactly solid. -/
  | badLeafZero
  | noEmptyLeaf
  | noBoxHullRoom
  | badVisibility (flaw : VisibilityFlaw)
  | badModelName (name : String)
  deriving DecidableEq, Repr

/-- The words for a refusal. -/
def LevelError.message : LevelError → String
  | .unreadable _ =>
      "I/O error"
  | .badMagic ident =>
      s!"Bad file identifier: {Hex.full ident}"
  | .unsupportedVersion version =>
      s!"Unsupported BSP version: {version}"
  | .lumpOutOfBounds lump offset size fileSize =>
      s!"{lump.name} lump out of bounds " ++
        s!"(offset {offset}, size {size}, file size {fileSize})"
  | .badLumpSize lump size recordSize =>
      s!"{lump.name} lump size {size} " ++
        s!"is not a multiple of record size {recordSize}"
  | .tooMany what count limit =>
      s!"Too many {what.label}: {count} (max {limit})"
  | .missing kind =>
      s!"Map with no {kind.plural}"
  | .badIndex reference index count =>
      s!"Bad {reference.label} index {index} (count {count})"
  | .badPlaneKind plane number =>
      s!"Plane {plane} has unknown type {number}"
  | .badLeafZero =>
      "Leaf 0 is not CONTENTS_SOLID"
  | .noEmptyLeaf =>
      "Map does not have an empty leaf"
  | .noBoxHullRoom =>
      "Not enough room for box tree"
  | .badVisibility flaw =>
      s!"Bad visibility data: {flaw.reason}"
  | .badModelName name =>
      s!"Bad inline model name: {name}"

/-- The underlying cause of a refusal, if there is one. -/
def LevelError.cause? : LevelError → Option String
  | .unreadable cause => some cause
  | _ => none

/-- What keeps a query or a change of state from being answered. -/
inductive Fault where
  | badLeaf (leaf count : Nat)
  | badCluster (cluster count : Nat)
  | badArea (area count : Nat)
  | badPortal (portal count : Nat)
  /-- A flood met an area that an earlier flood of the same pass had labelled. -/
  | reflooded (area flood previous : Nat)
  /-- A position outside its array, as in a head that does not exist. -/
  | outOfBounds
  /-- A walk that comes back to where it was and so has no end. -/
  | endless
  deriving DecidableEq, Repr

/-- The words for a fault, for those that name what was asked for. -/
def Fault.message? : Fault → Option String
  | .badLeaf leaf count =>
      some s!"Bad leaf number {leaf} (count {count})"
  | .badCluster cluster count =>
      some s!"Bad cluster {cluster} (count {count})"
  | .badArea area count =>
      some s!"Bad area {area} (count {count})"
  | .badPortal portal count =>
      some s!"Bad area portal {portal} (count {count})"
  | .reflooded area flood previous =>
      some s!"Area {area} reflooded (flood {flood} over {previous})"
  | .outOfBounds =>
      none
  | .endless =>
      none

/-- Why there is no answer. -/
inductive Failure where
  | refused (error : LevelError)
  | fault (fault : Fault)
  deriving DecidableEq, Repr

end LevelCollision
