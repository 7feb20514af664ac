import LevelCollision.Geometry.Scalar

namespace LevelCollision

/-!
# Vectors

Triples of components along the three coordinate axes. Arithmetic works one
component at a time; the dot product adds its three terms from left to right.
-/

/-- One of the three coordinate axes. -/
inductive Axis where
  | x
  | y
  | z
  deriving DecidableEq, Repr

/-- Axis of an index; every index past `1` names the last axis. -/
def Axis.ofIndex : Nat → Axis
  | 0 => .x
  | 1 => .y
  | _ => .z

/-- Position of an axis in a vector. -/
def Axis.index : Axis → Nat
  | .x => 0
  | .y => 1
  | .z => 2

/-- An axis is recovered from its position. -/
@[simp] theorem Axis.ofIndex_index
    (axis : Axis) :
    Axis.ofIndex axis.index = axis := by
  cases axis <;> rfl

/-- One value for each axis. -/
structure Vec3 (α : Type) where
  x : α
  y : α
  z : α
  deriving DecidableEq

namespace Vec3

variable {α β γ : Type}

/-- Component along an axis. -/
def get
    (vector : Vec3 α) :
    Axis → α
  | .x => vector.x
  | .y => vector.y
  | .z => vector.z

/-- Vectors are equal if their components are. -/
theorem ext_get
    {left right : Vec3 α}
    (same : ∀ axis, left.get axis = right.get axis) :
    left = right := by
  cases left
  cases right
  exact Vec3.mk.injEq _ _ _ _ _ _ ▸ ⟨same .x, same .y, same .z⟩

/-- The vector with one value on every axis. -/
def splat
    (value : α) : Vec3 α where
  x := value
  y := value
  z := value

/-- Apply a function to every component. -/
def map
    (transform : α → β)
    (vector : Vec3 α) : Vec3 β where
  x := transform vector.x
  y := transform vector.y
  z := transform vector.z

/-- Combine two vectors axis by axis. -/
def zipWith
    (combine : α → β → γ)
    (left : Vec3 α)
    (right : Vec3 β) : Vec3 γ where
  x := combine left.x right.x
  y := combine left.y right.y
  z := combine left.z right.z

/-- Mapping a vector maps each of its components. -/
@[simp] theorem get_map
    (transform : α → β)
    (vector : Vec3 α)
    (axis : Axis) :
    (vector.map transform).get axis = transform (vector.get axis) := by
  cases axis <;> rfl

/-- Combining two vectors combines their components. -/
@[simp] theorem get_zipWith
    (combine : α → β → γ)
    (left : Vec3 α)
    (right : Vec3 β)
    (axis : Axis) :
    (zipWith combine left right).get axis =
      combine (left.get axis) (right.get axis) := by
  cases axis <;> rfl

/-- Every component of a uniform vector is its value. -/
@[simp] theorem get_splat
    (value : α)
    (axis : Axis) :
    (splat value).get axis = value := by
  cases axis <;> rfl

section Arithmetic

variable {S : Type} [Scalar S]

instance : Add (Vec3 S) where
  add := zipWith (· + ·)

instance : Sub (Vec3 S) where
  sub := zipWith (· - ·)

instance : Neg (Vec3 S) where
  neg := map (- ·)

/-- The vector of zeros. -/
def zero : Vec3 S :=
  splat 0

/-- Every component multiplied by one factor. -/
def scale
    (vector : Vec3 S)
    (factor : S) : Vec3 S :=
  vector.map (· * factor)

/-- Sum of the products of the components, added in axis order. -/
def dot
    (left right : Vec3 S) : S :=
  left.x * right.x + left.y * right.y + left.z * right.z

/-- Numeric equality on every axis. -/
def coincides
    (left right : Vec3 S) : Bool :=
  left.x == right.x && left.y == right.y && left.z == right.z

/-- The component of a sum is the sum of the components. -/
@[simp] theorem get_add
    (left right : Vec3 S)
    (axis : Axis) :
    (left + right).get axis = left.get axis + right.get axis :=
  get_zipWith _ left right axis

/-- The component of a difference is the difference of the components. -/
@[simp] theorem get_sub
    (left right : Vec3 S)
    (axis : Axis) :
    (left - right).get axis = left.get axis - right.get axis :=
  get_zipWith _ left right axis

/-- The component of a negated vector is the negated component. -/
@[simp] theorem get_neg
    (vector : Vec3 S)
    (axis : Axis) :
    (-vector).get axis = -vector.get axis :=
  get_map _ vector axis

/-- Scaling a vector scales each component. -/
@[simp] theorem get_scale
    (vector : Vec3 S)
    (factor : S)
    (axis : Axis) :
    (vector.scale factor).get axis = vector.get axis * factor :=
  get_map _ vector axis

end Arithmetic

end Vec3

end LevelCollision
