import Lockstep.Lanes

/-!
# Words read as binary32 numbers

A word becomes a number only inside an operation.  Arithmetic reads its
operands as IEEE binary32 numbers, rounds once to nearest with ties to even,
and stores the resulting pattern.  Operations that only choose or copy a
number work on the words themselves, so that every bit of a pattern survives
them, the payload of a NaN included.

The functions for which no rounding is prescribed, sine and power among them,
stand in for those of a platform.  Nothing depends on their values: all that is
used of them is that they are functions of their operands.
-/

namespace Lockstep.Binary32

/-- The number that a word denotes. -/
def value (word : Word) : Float32 :=
  Float32.ofBits word

/-- The word of a number. -/
def word (number : Float32) : Word :=
  number.toBits

/-- The word of one. -/
def one : Word := 0x3f800000

/-- The sign bit of a word. -/
def signBit : Word := 0x80000000

/-- Flip the sign, for a NaN as for a number. -/
def negate (operand : Word) : Word :=
  operand ^^^ signBit

/-- Apply a unary function of numbers to a word. -/
def lift (function : Float32 → Float32) (operand : Word) : Word :=
  word (function (value operand))

/-- Apply a binary function of numbers to two words. -/
def lift₂ (function : Float32 → Float32 → Float32) (left right : Word) : Word :=
  word (function (value left) (value right))

/--
Evaluate a unary function in binary64 and round its result to binary32: one
choice among the roundings that platforms make.
-/
def widely (function : Float → Float) (operand : Word) : Word :=
  word (function (value operand).toFloat).toFloat32

/-- Evaluate a binary function in binary64 and round its result to binary32. -/
def widely₂ (function : Float → Float → Float) (left right : Word) : Word :=
  word (function (value left).toFloat (value right).toFloat).toFloat32

/-- Whether the number of one word is below that of another; false on a NaN. -/
def below (left right : Word) : Bool :=
  decide (value left < value right)

/-- Whether the number of one word is at most that of another; false on a NaN. -/
def atMost (left right : Word) : Bool :=
  decide (value left ≤ value right)

/-- Whether two words denote equal numbers; false on a NaN, true on both zeros. -/
def same (left right : Word) : Bool :=
  value left == value right

/-- The second word if it is below the first, and the first otherwise. -/
def minimum (left right : Word) : Word :=
  if below right left then right else left

/-- The second word if the first is below it, and the first otherwise. -/
def maximum (left right : Word) : Word :=
  if below left right then right else left

/-- Drop the fraction of a number, toward zero. -/
def truncate (number : Float32) : Float32 :=
  if number < 0 then number.ceil else number.floor

/-- What is left of the first number beyond a whole multiple of the second. -/
def remainder (left right : Float32) : Float32 :=
  left - truncate (left / right) * right

/-- The distance of a number from the whole number at or below it. -/
def fraction (number : Float32) : Float32 :=
  number - number.floor

/-- The point a given share of the way from one number to another. -/
def interpolate (start finish share : Word) : Word :=
  word (value start + (value finish - value start) * value share)

/-- Truncate to a signed integer, clamping at both ends; a NaN gives zero. -/
def toSigned (operand : Word) : Word :=
  (value operand).toInt32.toUInt32

/-- The number nearest to a signed integer. -/
def ofSigned (operand : Word) : Word :=
  word operand.toInt32.toFloat32

/-- The number nearest to an unsigned integer. -/
def ofUnsigned (operand : Word) : Word :=
  word operand.toFloat32

end Lockstep.Binary32
