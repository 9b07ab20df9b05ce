/-!
# Capacities

The fixed capacities of the machine and the largest size that a program may
declare.  Sums of declared sizes are kept at or below that largest size.
-/

namespace Lockstep

/-- Registers of the stack that all activations share. -/
abbrev stackCapacity : Nat := 192

/-- Global registers. -/
abbrev globalCapacity : Nat := 32

/-- Entries of a predicate stack, its permanent lowest entry included. -/
abbrev predicateCapacity : Nat := 16

/-- Activations that may wait for a call to return. -/
abbrev callCapacity : Nat := 64

/-- The largest size that a program may declare: the largest 64-bit number. -/
def largestSize : Nat := 0xFFFFFFFFFFFFFFFF

/-- The sum of two sizes, or the largest size if the sum is beyond it. -/
def saturatingAdd (left right : Nat) : Nat :=
  min (left + right) largestSize

/-- The sum of a list of sizes, or nothing if it is beyond the largest size. -/
def boundedSum (sizes : List Nat) : Option Nat :=
  let total := sizes.foldl (· + ·) 0
  if total ≤ largestSize then some total else none

end Lockstep
