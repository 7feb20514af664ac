import LevelCollision.Geometry.Vec3

namespace LevelCollision

/-!
# Orientations

An orientation is three angles in degrees: pitch, yaw and roll. It determines a
frame of three vectors, and rotating a vector expresses it in that frame.

The frame is built from the sine and the cosine of each angle alone, so that its
geometry depends only on how the two relate.
-/

/-- The sine and the cosine of an angle in degrees. -/
class Trig (S : Type) where
  sin : S → S
  cos : S → S

/-- Radians in one degree, as the nearest binary value. -/
def radiansPerDegree : Float32 :=
  Float32.ofBits 0x3c8efa35

/-- Sine and cosine are taken in double precision and rounded once. -/
instance : Trig Float32 where
  sin degrees := (Float.sin (degrees * radiansPerDegree).toFloat).toFloat32
  cos degrees := (Float.cos (degrees * radiansPerDegree).toFloat).toFloat32

/-- An orientation, in degrees about each axis. -/
structure Angles (S : Type) where
  pitch : S
  yaw : S
  roll : S
  deriving DecidableEq

/-- The three directions of an orientation. -/
structure Frame (S : Type) where
  forward : Vec3 S
  right : Vec3 S
  up : Vec3 S
  deriving DecidableEq

namespace Frame

variable {S : Type} [Scalar S]

/-- Coordinates of a vector along forward, left and up. -/
def coordinates
    (frame : Frame S)
    (vector : Vec3 S) : Vec3 S where
  x := vector.dot frame.forward
  y := -vector.dot frame.right
  z := vector.dot frame.up

end Frame

namespace Angles

variable {S : Type} [Scalar S]

/-- The orientation without any rotation. -/
def zero : Angles S where
  pitch := 0
  yaw := 0
  roll := 0

/-- Whether all three angles are numerically zero. -/
def isZero
    (angles : Angles S) : Bool :=
  angles.pitch == 0 && angles.roll == 0 && angles.yaw == 0

instance : Neg (Angles S) where
  neg angles :=
    { pitch := -angles.pitch
      yaw := -angles.yaw
      roll := -angles.roll }

variable [Trig S]

/-- The forward, right and up directions of an orientation. -/
def frame
    (angles : Angles S) : Frame S :=
  let sy := Trig.sin angles.yaw
  let cy := Trig.cos angles.yaw
  let sp := Trig.sin angles.pitch
  let cp := Trig.cos angles.pitch
  let sr := Trig.sin angles.roll
  let cr := Trig.cos angles.roll
  { forward := ⟨cp * cy, cp * sy, -sp⟩
    right :=
      ⟨-sr * sp * cy + cr * sy,
        -sr * sp * sy - cr * cy,
        -sr * cp⟩
    up :=
      ⟨cr * sp * cy + sr * sy,
        cr * sp * sy - sr * cy,
        cr * cp⟩ }

/-- A vector expressed in the frame of an orientation. -/
def rotate
    (angles : Angles S)
    (vector : Vec3 S) : Vec3 S :=
  angles.frame.coordinates vector

end Angles

end LevelCollision
