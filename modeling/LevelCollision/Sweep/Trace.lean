import LevelCollision.Geometry.Plane
import LevelCollision.Level.Contents

namespace LevelCollision

/-!
# Motions and traces

A motion moves a box from one point to another and names the contents that stop
it. A trace says how far the box came and what it met. A motion that goes nowhere
tests a position.
-/

/-- A box on its way from one point to another. -/
structure Motion (S : Type) where
  start : Vec3 S
  stop : Vec3 S
  /-- The box, relative to the moving point. -/
  box : Box S
  /-- The contents that stop the box. -/
  mask : Contents
  deriving DecidableEq

/-- What became of a motion. -/
structure Trace (S : Type) where
  /-- The whole motion was inside a brush. -/
  allSolid : Bool
  /-- The motion began inside a brush. -/
  startSolid : Bool
  /-- The part of the motion that was made, in `[0, 1]`. -/
  fraction : S
  endPoint : Vec3 S
  /-- The plane that stopped the box. -/
  plane : Option (Plane S)
  /-- The surface of the side that stopped the box. -/
  surface : Option Nat
  /-- The contents of the brush that stopped the box. -/
  contents : Contents
  /-- The leaf in which the box was stopped or began inside a brush. -/
  leaf : Option Nat
  deriving DecidableEq

section

variable {S : Type} [Scalar S]

/-- The trace of a motion that met nothing. -/
def Trace.unobstructed
    (endPoint : Vec3 S) : Trace S where
  allSolid := false
  startSolid := false
  fraction := 1
  endPoint := endPoint
  plane := none
  surface := none
  contents := .empty
  leaf := none

/-- Whether something kept the motion from its end. -/
def Trace.isObstructed
    (trace : Trace S) : Bool :=
  decide (trace.fraction < 1)

namespace Motion

/-- Whether the motion goes nowhere. -/
def isStill
    (motion : Motion S) : Bool :=
  motion.start.coincides motion.stop

/-- The point at a fraction of the way. -/
def pointAt
    (motion : Motion S)
    (fraction : S) : Vec3 S :=
  motion.start + (motion.stop - motion.start).scale fraction

/-- Whether the moving box has no extent. -/
def isPoint
    (motion : Motion S) : Bool :=
  motion.box.mins.coincides Vec3.zero && motion.box.maxs.coincides Vec3.zero

/--
For each axis, how far the moving box reaches from its point, to whichever side it
reaches farther.
-/
def reach
    (motion : Motion S) : Vec3 S :=
  if motion.isPoint then
    Vec3.zero
  else
    Vec3.zipWith Scalar.upper (-motion.box.mins) motion.box.maxs

/-- The corner of the moving box that goes deepest behind a plane. -/
def deepestCorner
    (motion : Motion S)
    (plane : Plane S) : Vec3 S :=
  Vec3.zipWith
    (fun component corners => if component < 0 then corners.2 else corners.1)
    plane.normal
    (Vec3.zipWith Prod.mk motion.box.mins motion.box.maxs)

/-- Distance of a plane from the origin once it is pushed out to touch the box. -/
def pushedDist
    (motion : Motion S)
    (plane : Plane S) : S :=
  plane.dist - (motion.deepestCorner plane).dot plane.normal

end Motion

end

end LevelCollision
