import LevelCollision.Geometry.Vec3

namespace LevelCollision

/-!
# Planes

A plane is a normal and a distance from the origin, with two facts recorded
beside them: its kind, which tells whether the normal is exactly the positive
unit vector of an axis, and the signs of the normal's components.

Points on a plane are in front of it. A box is classified with a slack of
`sideEpsilon` when the plane is axial, and by its two extreme corners along the
normal otherwise; the recorded signs select those corners.
-/

/--
Classification of a normal.

An axial plane has the positive unit vector of its axis as its normal. The other
kinds record the dominant axis of a general normal, if it is known.
-/
inductive PlaneKind where
  | axial (axis : Axis)
  | dominant (axis : Axis)
  | general
  deriving DecidableEq, Repr

namespace PlaneKind

/-- Number of a kind in a plane record. -/
def number : PlaneKind → Nat
  | .axial axis => axis.index
  | .dominant axis => 3 + axis.index
  | .general => 6

/-- Kind of a number in a plane record. -/
def ofNumber? : Int → Option PlaneKind
  | 0 => some (.axial .x)
  | 1 => some (.axial .y)
  | 2 => some (.axial .z)
  | 3 => some (.dominant .x)
  | 4 => some (.dominant .y)
  | 5 => some (.dominant .z)
  | 6 => some .general
  | _ => none

/-- A kind is recovered from its number. -/
@[simp] theorem ofNumber?_number
    (kind : PlaneKind) :
    ofNumber? kind.number = some kind := by
  rcases kind with (_ | _ | _) | (_ | _ | _) | _ <;> rfl

/-- Axis of an axial plane. -/
def axis? : PlaneKind → Option Axis
  | .axial axis => some axis
  | _ => none

/-- Kind of the opposite plane, whose normal is no longer a positive unit vector. -/
def opposite : PlaneKind → PlaneKind
  | .axial axis => .dominant axis
  | kind => kind

end PlaneKind

/-- One side of a plane. -/
inductive Side where
  | front
  | back
  deriving DecidableEq, Repr

/-- The other side of a plane. -/
def Side.opposite : Side → Side
  | .front => .back
  | .back => .front

/-- Sides of a plane that a box occupies. -/
inductive BoxSide where
  | front
  | back
  | both
  deriving DecidableEq, Repr

/-- An axis-aligned box given by two corners. -/
structure Box (S : Type) where
  mins : Vec3 S
  maxs : Vec3 S
  deriving DecidableEq

/--
The box grown outwards by the same amount on every axis.
-/
def Box.grow
    {S : Type} [Scalar S]
    (box : Box S)
    (amount : S) : Box S where
  mins := box.mins - Vec3.splat amount
  maxs := box.maxs + Vec3.splat amount

/-- An oriented plane with its recorded kind and signs. -/
structure Plane (S : Type) where
  normal : Vec3 S
  dist : S
  kind : PlaneKind
  /-- For each axis, whether the normal was negative along it. -/
  signs : Vec3 Bool
  deriving DecidableEq

namespace Plane

variable {S : Type} [Scalar S]

/-- For each axis, whether a vector is negative along it. -/
def signsOf
    (normal : Vec3 S) : Vec3 Bool :=
  normal.map (fun component => decide (component < 0))

/-- The plane of a normal, with the signs of that normal. -/
def ofNormal
    (normal : Vec3 S)
    (dist : S)
    (kind : PlaneKind) : Plane S where
  normal := normal
  dist := dist
  kind := kind
  signs := signsOf normal

/-- Positive unit vector of an axis. -/
def unit : Axis → Vec3 S
  | .x => ⟨1, 0, 0⟩
  | .y => ⟨0, 1, 0⟩
  | .z => ⟨0, 0, 1⟩

/-- The plane across an axis at a distance from the origin. -/
def axial
    (axis : Axis)
    (dist : S) : Plane S :=
  ofNormal (unit axis) dist (.axial axis)

/-- The plane with no direction. -/
def zero : Plane S :=
  ofNormal Vec3.zero 0 (.axial .x)

/-- The same plane facing the other way. -/
def opposite
    (plane : Plane S) : Plane S :=
  ofNormal (-plane.normal) (-plane.dist) plane.kind.opposite

/--
The plane with another normal. The recorded signs stay those of the normal that
the plane was made with.
-/
def withNormal
    (plane : Plane S)
    (normal : Vec3 S) : Plane S :=
  { plane with normal := normal }

/-- The recorded signs as a number, with bit `i` for axis `i`. -/
def signBits
    (plane : Plane S) : Nat :=
  (if plane.signs.x then 1 else 0) +
    (if plane.signs.y then 2 else 0) +
    (if plane.signs.z then 4 else 0)

/-- Signed distance of a point from the plane. -/
def pointDist
    (plane : Plane S)
    (point : Vec3 S) : S :=
  match plane.kind.axis? with
  | some axis =>
      point.get axis - plane.dist
  | none =>
      point.dot plane.normal - plane.dist

/-- Side of the plane that a point belongs to. -/
def pointSide
    (plane : Plane S)
    (point : Vec3 S) : Side :=
  if 0 ≤ plane.pointDist point then .front else .back

/-- Corner of a box that lies farthest behind the plane. -/
def nearCorner
    (plane : Plane S)
    (box : Box S) : Vec3 S :=
  Vec3.zipWith
    (fun negative corners => if negative then corners.2 else corners.1)
    plane.signs
    (Vec3.zipWith Prod.mk box.mins box.maxs)

/-- Corner of a box that lies farthest in front of the plane. -/
def farCorner
    (plane : Plane S)
    (box : Box S) : Vec3 S :=
  Vec3.zipWith
    (fun negative corners => if negative then corners.1 else corners.2)
    plane.signs
    (Vec3.zipWith Prod.mk box.mins box.maxs)

/--
Sides of the plane that a box occupies.

A box on neither side, which a plane without a direction allows, counts as being
on both.
-/
def boxSide
    (plane : Plane S)
    (box : Box S) : BoxSide :=
  match plane.kind.axis? with
  | some axis =>
      if plane.dist - Scalar.sideEpsilon ≤ box.mins.get axis then
        .front
      else if box.maxs.get axis ≤ plane.dist + Scalar.sideEpsilon then
        .back
      else
        .both
  | none =>
      let inFront := decide (plane.dist ≤ (plane.farCorner box).dot plane.normal)
      let behind := decide ((plane.nearCorner box).dot plane.normal < plane.dist)
      match inFront, behind with
      | true, false =>
          .front
      | false, true =>
          .back
      | _, _ =>
          .both

end Plane

end LevelCollision
