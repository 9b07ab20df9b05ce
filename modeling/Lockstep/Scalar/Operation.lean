import Lockstep.Scalar.Binary32

/-!
# Scalar operations

The lane-wise instructions compute one scalar function in every lane.  This
module names those functions and gives their meaning on words.  An operation
whose name ends in `F` reads binary32 numbers, one in `S` signed integers,
one in `U` unsigned integers, and one in `I` integers for which the sign does
not matter.  Integer arithmetic wraps.
-/

namespace Lockstep

/-- Operations on one word. -/
inductive Unary where
  | negateF
  | negateI
  | notB
  | sine
  | cosine
  | tangent
  | arctangent
  | squareRoot
  | floor
  | ceiling
  | fraction
  | floatToInteger
  | signedToFloat
  | unsignedToFloat
deriving DecidableEq

/-- Tests on two words. -/
inductive Comparison where
  | equalF
  | differF
  | equalI
  | differI
  | lessF
  | atMostF
  | greaterF
  | atLeastF
  | lessS
  | atMostS
  | greaterS
  | atLeastS
  | lessU
  | atMostU
  | greaterU
  | atLeastU
deriving DecidableEq

/-- Operations on two words that are defined on every pair. -/
inductive Binary where
  | addF
  | addI
  | subtractF
  | subtractI
  | multiplyF
  | multiplyI
  | divideF
  | remainderF
  | minimumF
  | minimumS
  | maximumF
  | maximumS
  | power
  | compare (test : Comparison)
deriving DecidableEq

/-- Integer operations that a zero divisor leaves undefined. -/
inductive Division where
  | quotientS
  | quotientU
  | remainderS
  | remainderU
deriving DecidableEq

/-- Bitwise operations on two booleans. -/
inductive Logic where
  | conjunction
  | disjunction
  | exclusive
deriving DecidableEq

/-- Shifts by a fixed amount. -/
inductive Shift where
  | left
  | rightS
  | rightU
deriving DecidableEq

/-- The result of a unary operation. -/
def Unary.eval : Unary → Word → Word
  | .negateF => Binary32.negate
  | .negateI => fun operand => -operand
  | .notB => fun operand => ~~~operand
  | .sine => Binary32.widely Float.sin
  | .cosine => Binary32.widely Float.cos
  | .tangent => Binary32.widely Float.tan
  | .arctangent => Binary32.widely Float.atan
  | .squareRoot => Binary32.lift Float32.sqrt
  | .floor => Binary32.lift Float32.floor
  | .ceiling => Binary32.lift Float32.ceil
  | .fraction => Binary32.lift Binary32.fraction
  | .floatToInteger => Binary32.toSigned
  | .signedToFloat => Binary32.ofSigned
  | .unsignedToFloat => Binary32.ofUnsigned

/-- Whether two words pass a test. -/
def Comparison.holds : Comparison → Word → Word → Bool
  | .equalF, left, right => Binary32.same left right
  | .differF, left, right => !Binary32.same left right
  | .equalI, left, right => left == right
  | .differI, left, right => left != right
  | .lessF, left, right => Binary32.below left right
  | .atMostF, left, right => Binary32.atMost left right
  | .greaterF, left, right => Binary32.below right left
  | .atLeastF, left, right => Binary32.atMost right left
  | .lessS, left, right => decide (left.toInt32 < right.toInt32)
  | .atMostS, left, right => decide (left.toInt32 ≤ right.toInt32)
  | .greaterS, left, right => decide (right.toInt32 < left.toInt32)
  | .atLeastS, left, right => decide (right.toInt32 ≤ left.toInt32)
  | .lessU, left, right => decide (left < right)
  | .atMostU, left, right => decide (left ≤ right)
  | .greaterU, left, right => decide (right < left)
  | .atLeastU, left, right => decide (right ≤ left)

/-- The result of a binary operation. -/
def Binary.eval : Binary → Word → Word → Word
  | .addF => Binary32.lift₂ (· + ·)
  | .addI => fun left right => left + right
  | .subtractF => Binary32.lift₂ (· - ·)
  | .subtractI => fun left right => left - right
  | .multiplyF => Binary32.lift₂ (· * ·)
  | .multiplyI => fun left right => left * right
  | .divideF => Binary32.lift₂ (· / ·)
  | .remainderF => Binary32.lift₂ Binary32.remainder
  | .minimumF => Binary32.minimum
  | .minimumS => fun left right =>
      if left.toInt32 ≤ right.toInt32 then left else right
  | .maximumF => Binary32.maximum
  | .maximumS => fun left right =>
      if left.toInt32 ≤ right.toInt32 then right else left
  | .power => Binary32.widely₂ Float.pow
  | .compare test => fun left right => truthWord (test.holds left right)

/--
The result of an integer division.  Signed division truncates toward zero and
the remainder takes the sign of the dividend; the quotient of the least
integer by minus one wraps.
-/
def Division.eval : Division → Word → Word → Word
  | .quotientS, dividend, divisor =>
      (dividend.toInt32 / divisor.toInt32).toUInt32
  | .quotientU, dividend, divisor => dividend / divisor
  | .remainderS, dividend, divisor =>
      (dividend.toInt32 % divisor.toInt32).toUInt32
  | .remainderU, dividend, divisor => dividend % divisor

/-- The result of a bitwise operation. -/
def Logic.eval : Logic → Word → Word → Word
  | .conjunction => fun left right => left &&& right
  | .disjunction => fun left right => left ||| right
  | .exclusive => fun left right => left ^^^ right

/-- The result of a shift by an amount below 32. -/
def Shift.eval : Shift → UInt8 → Word → Word
  | .left, amount, operand => operand <<< amount.toUInt32
  | .rightS, amount, operand =>
      (operand.toInt32 >>> amount.toUInt32.toInt32).toUInt32
  | .rightU, amount, operand => operand >>> amount.toUInt32

/-- Take the second word where the condition is not zero, else the first. -/
def mixWord (other chosen condition : Word) : Word :=
  if condition != 0 then chosen else other

end Lockstep
