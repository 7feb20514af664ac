import LevelCollision.Areas.Flood
import LevelCollision.Config
import LevelCollision.Entities.Worldspawn
import LevelCollision.File.Level
import LevelCollision.Query.PointLeaf
import LevelCollision.Query.Visibility
import LevelCollision.Sweep.Placement

namespace LevelCollision

/-!
# Worlds

A world is a level in use: which of its portals are open, the settings of its
queries, and how many queries were answered. Queries do not change the level. Those
that are counted answer with the world after them.

When a portal is opened or closed, and when the settings are replaced, the areas
are labelled anew.
-/

/-- How many queries were answered since the last reset. -/
structure Counters where
  pointContents : Nat := 0
  traces : Nat := 0
  /-- How many brushes the boxes of traces were clipped to. -/
  brushClips : Nat := 0
  deriving DecidableEq, Repr

/-- A level in use. -/
structure World (S : Type) [Scalar S] where
  level : Level S
  areas : AreaState
  config : Config
  counters : Counters

namespace World

variable {S : Type} [Scalar S]

/-- A level with all portals closed. -/
def ofLevel
    (level : Level S) : Except Fault (World S) := do
  let areas ← (AreaState.closed level.own).reflow level.own
  return {
    level := level
    areas := areas
    config := {}
    counters := {} }

section Points

/-- The leaf of a point below a head. -/
def pointLeaf
    (world : World S)
    (head : Head S)
    (point : Vec3 S) : Except Fault Nat :=
  (world.level.tree head).pointLeaf point

/-- The contents at a point below a head. -/
def pointContents
    (world : World S)
    (head : Head S)
    (point : Vec3 S) : Except Fault (Contents × World S) := do
  let contents ← (world.level.tree head).pointContents point
  let counters :=
    { world.counters with
      pointContents := world.counters.pointContents + 1 }
  return (contents, { world with counters := counters })

/-- The contents at a point, for a model that stands elsewhere. -/
def placedPointContents
    [Trig S]
    (world : World S)
    (head : Head S)
    (placement : Placement S)
    (point : Vec3 S) : Except Fault (Contents × World S) :=
  world.pointContents head (placement.toLocal head point)

/-- The first leaves, up to a limit, that a box touches below a head. -/
def boxLeaves
    (world : World S)
    (head : Head S)
    (box : Box S)
    (limit : Nat) : Except Fault LeafList :=
  (world.level.tree head).boxLeaves box limit

end Points

section Traces

/-- What becomes of a motion among what is below a head. -/
def trace
    (world : World S)
    (head : Head S)
    (motion : Motion S) : Except Fault (Trace S × World S) := do
  let probe ←
    (world.level.tree head).probe .usual world.config.maxTouchedLeaves motion
  let counters :=
    { world.counters with
      traces := world.counters.traces + 1
      brushClips := world.counters.brushClips + probe.clips }
  return (probe.trace, { world with counters := counters })

/-- What becomes of a motion that meets a model that stands elsewhere. -/
def placedTrace
    [Trig S]
    (world : World S)
    (head : Head S)
    (placement : Placement S)
    (motion : Motion S) : Except Fault (Trace S × World S) := do
  let (trace, after) ←
    world.trace head (placement.motionToLocal head motion)
  return (placement.traceToWorld head motion trace, after)

end Traces

section Visibility

/-- The clusters seen or heard from a cluster. -/
def clusterRow
    (world : World S)
    (sense : Sense)
    (cluster : Option Nat) : Except Fault (Logged BitRow) :=
  world.level.clusterRow sense cluster

/-- The clusters seen from anywhere around a point. -/
def fatRow
    (world : World S)
    (origin : Vec3 S)
    (radius : S) : Except Fault (Logged BitRow) :=
  world.level.fatRow world.config.maxFatLeaves origin radius

/-- The clusters that a box touches, unless there are too many of them. -/
def boxClusters
    (world : World S)
    (box : Box S)
    (limit : Nat) : Except Fault (Option (Array Nat)) :=
  world.level.boxClusters world.config.maxTouchedLeaves box limit

/-- Whether anything below a head is in a cluster of a row. -/
def visible
    (world : World S)
    (head : Head S)
    (row : BitRow) : Except Fault Bool :=
  (world.level.tree head).visible row

end Visibility

section Areas

/-- Replace the settings. -/
def setConfig
    (world : World S)
    (config : Config) : Except Fault (World S) := do
  let areas ← world.areas.reflow world.level.own
  return { world with areas := areas, config := config }

/-- Open or close the portals of a number. -/
def setPortal
    (world : World S)
    (portal : Nat)
    (isOpen : Bool) : Except Fault (World S) := do
  let areas ← world.areas.setPortal world.level.own portal isOpen
  return { world with areas := areas }

/-- Whether the portals of a number are open. -/
def portalOpen
    (world : World S)
    (portal : Nat) : Except Fault Bool :=
  world.areas.isOpen world.level.own portal

/-- Whether two areas are joined. -/
def areasJoined
    (world : World S)
    (left right : Nat) : Except Fault Bool :=
  if world.config.noAreas then
    .ok true
  else
    world.areas.joined world.level.own left right

/-- The row of the areas that are joined to an area. -/
def areaRow
    (world : World S)
    (area : Nat) : Except Fault BitRow :=
  if world.config.noAreas then
    .ok (.full (BitRow.byteCount world.level.own.areas.size))
  else
    world.areas.joinedRow world.level.own area

end Areas

/-- Begin to count again. -/
def resetCounters
    (world : World S) : World S :=
  { world with counters := {} }

/-- The value of a name at the world of the level's entity text. -/
def worldspawnValue
    (world : World S)
    (name : String) : Logged (Option String) :=
  EntityText.worldspawnValue world.level.entityText.toList name

end World

end LevelCollision
