import LevelCollision.Geometry.Angles
import LevelCollision.Sweep.Walk

namespace LevelCollision

/-!
# Placed models

A model may stand elsewhere in the world and be turned. A query about it is put in
the model's own coordinates, and what it answers is brought back to the world. The
hull of a box stands upright wherever it is.
-/

/-- Where a model stands and how it is turned. -/
structure Placement (S : Type) where
  origin : Vec3 S
  angles : Angles S
  deriving DecidableEq

variable {S : Type} [Scalar S]

namespace Placement

/-- Whether what is below a head is turned. -/
def turns
    (placement : Placement S)
    (head : Head S) : Bool :=
  !head.isBox && !placement.angles.isZero

variable [Trig S]

/-- A point of the world in the coordinates of what is below a head. -/
def toLocal
    (placement : Placement S)
    (head : Head S)
    (point : Vec3 S) : Vec3 S :=
  let moved := point - placement.origin
  if placement.turns head then placement.angles.rotate moved else moved

/-- A motion in the coordinates of what is below a head. -/
def motionToLocal
    (placement : Placement S)
    (head : Head S)
    (motion : Motion S) : Motion S :=
  { motion with
    start := placement.toLocal head motion.start
    stop := placement.toLocal head motion.stop }

/-- A plane that was hit, with its normal turned back to the world. -/
def planeToWorld
    (placement : Placement S)
    (plane : Plane S) : Plane S :=
  plane.withNormal ((-placement.angles).rotate plane.normal)

/-- A trace of a local motion as one of the motion in the world. -/
def traceToWorld
    (placement : Placement S)
    (head : Head S)
    (motion : Motion S)
    (trace : Trace S) : Trace S :=
  { trace with
    plane :=
      if placement.turns head && trace.fraction != 1 then
        trace.plane.map placement.planeToWorld
      else
        trace.plane
    endPoint := motion.pointAt trace.fraction }

end Placement

end LevelCollision
