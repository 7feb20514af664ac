namespace LevelCollision

/-!
# Scalars

Coordinates, distances and fractions are values of one scalar type `S`. A level
read from a file is over `Float32`, so that every answer is rounded after each
operation as binary arithmetic rounds it. The same definitions over `Rat` read
each operation exactly, which is the reading in which geometric facts such as
"the sweep stops at most `distEpsilon` before the surface" are stated.

`lower` and `upper` pick the smaller and the larger of two values and answer with
the other operand when one of them is not a number.
-/

/--
A type of scalars: the arithmetic, the order and the two tolerances that the
geometry uses.

`BEq` is numeric equality: it identifies the two zeros, and a value that is not a
number differs from itself.
-/
class Scalar (S : Type) extends
    Add S, Sub S, Mul S, Div S, Neg S, Zero S, One S, LT S, LE S, BEq S where
  decLt : DecidableLT S
  decLe : DecidableLE S
  /-- The value without its sign. -/
  abs : S → S
  /-- Slack of an axial box classification, about a thousandth of a unit. -/
  sideEpsilon : S
  /-- Distance kept between the end of a sweep and the surface that stopped it. -/
  distEpsilon : S

namespace Scalar

instance [Scalar S] : DecidableLT S := decLt

instance [Scalar S] : DecidableLE S := decLe

/--
Binary scalars of 32 bits. The first tolerance is the value nearest to a
thousandth, the second is exactly `1/32`.
-/
instance : Scalar Float32 where
  zero := Float32.ofBits 0x00000000
  one := Float32.ofBits 0x3f800000
  decLt := inferInstance
  decLe := inferInstance
  abs := Float32.abs
  sideEpsilon := Float32.ofBits 0x3a83126f
  distEpsilon := Float32.ofBits 0x3d000000

/-- Exact scalars, with the tolerances of the binary ones. -/
instance : Scalar Rat where
  zero := 0
  one := 1
  decLt := inferInstance
  decLe := inferInstance
  abs value := if value < 0 then -value else value
  sideEpsilon := 8589935 / 8589934592
  distEpsilon := 1 / 32

variable {S : Type} [Scalar S]

/--
The larger of two values; the other one if one is not a number. Of two equal values
it is the first, so that the larger of `0` and a negative zero is `0`.
-/
def upper
    (first second : S) : S :=
  if first == first then
    if first < second then second else first
  else
    second

/-- The smaller of two values; the other one if one is not a number. -/
def lower
    (first second : S) : S :=
  if first == first then
    if second < first then second else first
  else
    second

/-- The value moved into `[0, 1]`; `0` if it is not a number. -/
def clampToUnit
    (value : S) : S :=
  lower (upper 0 value) 1

end Scalar

end LevelCollision
