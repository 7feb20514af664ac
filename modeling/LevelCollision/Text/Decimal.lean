namespace LevelCollision

/-!
# Decimal numerals

An unsigned number is written with one or more digits, which a single plus sign
may precede. Leading zeros are allowed, as many as one likes. The number is made
digit by digit in a word of 64 bits, and digits that outgrow the word have none.
-/

namespace Decimal

/-- A number with one more digit behind it, if a word has room for that. -/
def push?
    (number : Nat)
    (char : Char) : Option Nat :=
  let longer := number * 10 + (char.toNat - '0'.toNat)
  if char.isDigit ∧ longer < UInt64.size then
    some longer
  else
    none

/-- Number of one or more digits. -/
def digits?
    (text : List Char) : Option Nat :=
  if text = [] then
    none
  else
    text.foldlM push? 0

/-- Number of a numeral, with or without a plus sign. -/
def unsigned? : List Char → Option Nat
  | '+' :: text => digits? text
  | text => digits? text

end Decimal

end LevelCollision
