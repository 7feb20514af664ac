import LevelCollision.Level.Records
import LevelCollision.Sweep.Trace

namespace LevelCollision

/-!
# Clipping a motion to a brush

A brush is the space behind all of its planes. Each plane is pushed out by the
moving box, so that the motion of the box becomes that of a point, and is then
crossed at a fraction of the way: inwards, which may delay the entry into the
brush, or outwards, which may hasten the exit from it.

The entry is counted `distEpsilon` before the plane and the exit `distEpsilon`
behind it. The motion is stopped if its latest entry comes before its earliest exit.
-/

/-- A side of a brush with the plane that it lies on. -/
structure Face (S : Type) where
  plane : Plane S
  surface : Option Nat
  deriving DecidableEq

/-- What is known about a brush after some of its faces. -/
structure Crossing (S : Type) where
  /-- The latest entry. -/
  enter : S
  /-- The earliest exit. -/
  leave : S
  /-- The face of the latest entry. -/
  lead : Option (Face S)
  /-- The motion starts in front of a face. -/
  startOutside : Bool
  /-- The motion ends in front of a face. -/
  endOutside : Bool
  deriving DecidableEq

variable {S : Type} [Scalar S]

namespace Motion

/-- Distance of a face from the origin, as a motion of a box or of a point meets it. -/
def metDist
    (motion : Motion S)
    (face : Face S) : S :=
  if motion.isPoint then face.plane.dist else motion.pushedDist face.plane

/-- Distance of the start in front of a face. -/
def startDist
    (motion : Motion S)
    (face : Face S) : S :=
  motion.start.dot face.plane.normal - motion.metDist face

/-- Distance of the end in front of a face. -/
def stopDist
    (motion : Motion S)
    (face : Face S) : S :=
  motion.stop.dot face.plane.normal - motion.metDist face

/-- Whether the box at the start is in front of a face. -/
def startsInFront
    (motion : Motion S)
    (face : Face S) : Bool :=
  decide
    (0 < motion.start.dot face.plane.normal - motion.pushedDist face.plane)

end Motion

namespace Crossing

/-- Nothing is known before the first face. -/
def initial : Crossing S where
  enter := -1
  leave := 1
  lead := none
  startOutside := false
  endOutside := false

/-- What a face adds, from the distances of both ends in front of it. -/
def meet
    (crossing : Crossing S)
    (face : Face S)
    (before after : S) : Crossing S :=
  let seen :=
    { crossing with
      startOutside := crossing.startOutside || decide (0 < before)
      endOutside := crossing.endOutside || decide (0 < after) }
  if before ≤ 0 ∧ after ≤ 0 then
    seen
  else if after < before then
    let entry := (before - Scalar.distEpsilon) / (before - after)
    if crossing.enter < entry then
      { seen with enter := entry, lead := some face }
    else
      seen
  else
    let exit := (before + Scalar.distEpsilon) / (before - after)
    if exit < crossing.leave then
      { seen with leave := exit }
    else
      seen

/--
What a face adds; `none` if the whole motion is in front of it and does not come
nearer, so that the brush is never met.
-/
def meet?
    (crossing : Crossing S)
    (motion : Motion S)
    (face : Face S) : Option (Crossing S) :=
  let before := motion.startDist face
  let after := motion.stopDist face
  if 0 < before ∧ before ≤ after then
    none
  else
    some (crossing.meet face before after)

/-- What is known after all faces of a brush; `none` if the brush is never met. -/
def ofFaces?
    (motion : Motion S)
    (faces : List (Face S)) : Option (Crossing S) :=
  faces.foldlM (fun crossing face => crossing.meet? motion face) initial

end Crossing

namespace Trace

/-- Take note of a motion that starts inside a brush. -/
def noteStart
    (trace : Trace S)
    (crossing : Crossing S)
    (leaf : Nat) : Trace S :=
  if crossing.startOutside then
    trace
  else
    { trace with
      startSolid := true
      allSolid := trace.allSolid || !crossing.endOutside
      leaf := some leaf }

/-- Stop at the entry into a brush, unless the motion is stopped before it. -/
def stopAt
    (trace : Trace S)
    (crossing : Crossing S)
    (contents : Contents)
    (leaf : Nat) : Trace S :=
  match crossing.lead with
  | some face =>
      if crossing.enter < crossing.leave ∧ -1 < crossing.enter ∧
          crossing.enter < trace.fraction then
        { trace with
          fraction := Scalar.upper 0 crossing.enter
          plane := some face.plane
          surface := face.surface
          contents := contents
          leaf := some leaf }
      else
        trace
  | none =>
      trace

/-- The trace after a brush of a leaf was met. -/
def clip
    (trace : Trace S)
    (motion : Motion S)
    (contents : Contents)
    (faces : List (Face S))
    (leaf : Nat) : Trace S :=
  match Crossing.ofFaces? motion faces with
  | some crossing =>
      (trace.noteStart crossing leaf).stopAt crossing contents leaf
  | none =>
      trace

/-- The trace after the position of a box was tested against a brush of a leaf. -/
def test
    (trace : Trace S)
    (motion : Motion S)
    (contents : Contents)
    (faces : List (Face S))
    (leaf : Nat) : Trace S :=
  if faces.any motion.startsInFront then
    trace
  else
    { trace with
      startSolid := true
      allSolid := true
      fraction := 0
      contents := contents
      leaf := some leaf }

end Trace

end LevelCollision
