import LevelCollision.Level.Basic
import LevelCollision.Visibility.BitRow

namespace LevelCollision

/-!
# Area connectivity

Areas are joined by portals that can be open or closed. A pass of floods labels
the areas: starting from each area that the pass has not labelled, it follows open
portals and gives all areas it comes to the number of the flood. Two areas are
joined if they have the same number.

The first area is outside the level. No flood starts from it, so that it keeps an
older number unless a portal leads to it.

A label is told from that of an earlier pass by the number of the pass, which
returns to zero after its last value. A flood that comes to an area of another
flood of the same pass is a fault: a portal that can be passed in one direction
only has made connectivity ambiguous.
-/

/-- What the floods last said about an area. -/
structure AreaLabel where
  /-- The number of the flood. -/
  flood : Nat
  /-- The pass that the flood was part of. -/
  pass : UInt32
  deriving DecidableEq, Repr

/-- Which portals are open, and how areas are joined through them. -/
structure AreaState where
  /-- For each portal number, which begin at one, whether it is open. -/
  portalOpen : Array Bool
  labels : Array AreaLabel
  /-- The number of the last pass. -/
  pass : UInt32
  deriving DecidableEq

namespace AreaState

variable {S : Type}

/-- All portals are closed and no area has been labelled. -/
def closed
    (records : Records S) : AreaState where
  portalOpen := Array.replicate (records.areaPortals.size + 1) false
  labels := Array.replicate records.areas.size ⟨0, 0⟩
  pass := 0

/-- Give an area the label of a flood, and then all areas that it opens to. -/
def spread
    (records : Records S)
    (portalOpen : Array Bool)
    (label : AreaLabel) :
    Nat → Nat → Array AreaLabel → Except Fault (Array AreaLabel)
  | steps, area, labels => do
      let previous ← lookup labels area
      if previous.pass = label.pass then
        if previous.flood = label.flood then
          return labels
        else
          throw (.reflooded area label.flood previous.flood)
      else
        match steps with
        | 0 =>
            throw .endless
        | steps + 1 =>
            let entry ← lookup records.areas area
            let portals ← lookupSpan records.areaPortals entry.portals
            portals.foldlM
              (fun labels portal => do
                if ← lookup portalOpen portal.number then
                  spread records portalOpen label steps portal.otherArea labels
                else
                  return labels)
              (labels.setIfInBounds area label)

/-- Flood from each of these areas that the pass has not labelled, in order. -/
def floodFrom
    (records : Records S)
    (portalOpen : Array Bool)
    (pass : UInt32) :
    List Nat → Nat → Array AreaLabel → Except Fault (Array AreaLabel)
  | [], _, labels =>
      .ok labels
  | area :: rest, floods, labels => do
      let label ← lookup labels area
      if label.pass = pass then
        floodFrom records portalOpen pass rest floods labels
      else
        let labels ←
          spread records portalOpen ⟨floods + 1, pass⟩ records.areas.size area
            labels
        floodFrom records portalOpen pass rest (floods + 1) labels

/-- Label all areas anew, from every area but the first. -/
def reflow
    (state : AreaState)
    (records : Records S) : Except Fault AreaState := do
  let pass := state.pass + 1
  let labels ←
    floodFrom records state.portalOpen pass
      (List.range' 1 (records.areas.size - 1)) 0 state.labels
  return { state with labels := labels, pass := pass }

/-- Refuse a portal number past the number of portals. -/
def checkPortal
    (records : Records S)
    (portal : Nat) : Except Fault Unit :=
  if portal ≤ records.areaPortals.size then
    .ok ()
  else
    .error (.badPortal portal records.areaPortals.size)

/-- Refuse an area that the level does not have. -/
def checkArea
    (records : Records S)
    (area : Nat) : Except Fault Unit :=
  if area < records.areas.size then
    .ok ()
  else
    .error (.badArea area records.areas.size)

/-- Open or close all portals of a number. -/
def setPortal
    (state : AreaState)
    (records : Records S)
    (portal : Nat)
    (isOpen : Bool) : Except Fault AreaState := do
  checkPortal records portal
  let portalOpen ← store state.portalOpen portal isOpen
  reflow { state with portalOpen := portalOpen } records

/-- Whether the portals of a number are open. -/
def isOpen
    (state : AreaState)
    (records : Records S)
    (portal : Nat) : Except Fault Bool := do
  checkPortal records portal
  lookup state.portalOpen portal

/-- Whether two areas are joined through open portals. -/
def joined
    (state : AreaState)
    (records : Records S)
    (left right : Nat) : Except Fault Bool := do
  checkArea records left
  checkArea records right
  let leftLabel ← lookup state.labels left
  let rightLabel ← lookup state.labels right
  return leftLabel.flood == rightLabel.flood

/--
The row of the areas that are joined to an area. The first area counts as joined to
every area.
-/
def joinedRow
    (state : AreaState)
    (records : Records S)
    (area : Nat) : Except Fault BitRow := do
  checkArea records area
  let label ← lookup state.labels area
  (List.range records.areas.size).foldlM
    (fun row other => do
      if area = 0 then
        row.mark other
      else
        let otherLabel ← lookup state.labels other
        if otherLabel.flood = label.flood then
          row.mark other
        else
          return row)
    (.clear (BitRow.byteCount records.areas.size))

end AreaState

end LevelCollision
