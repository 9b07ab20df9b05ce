import Lockstep.Failure

/-!
# Predicates

Branches and loops are not taken by jumping but by switching lanes off.  A
masked scope holds the condition that opened it and the mask under which its
instructions run; a loop holds the lanes that still run it and the lanes that
wait for its next round.  The lanes that are live, those whose side effects
count, are the lanes both of the innermost scope and of the innermost loop.

Outside every scope the lanes that hold elements run, and outside every loop
no lane is held back.  An operation either succeeds or leaves the predicates
as they were.
-/

namespace Lockstep

/-- An open masked scope: the condition that opened it, and the lanes that run in it. -/
structure Scope where
  condition : Mask
  mask : Mask
deriving DecidableEq

/-- An open loop: the lanes that run in this round, and those that wait for the next. -/
structure Loop where
  running : Mask
  parked : Mask
deriving DecidableEq

/--
Which lanes run: the lanes that hold elements, and the open scopes and loops,
the innermost ones first.
-/
structure Predicates where
  occupied : Mask
  scopes : List Scope
  loops : List Loop
deriving DecidableEq

namespace Predicates

/-- The predicates before the first scope, with elements in the first lanes. -/
def start (lanes : Nat) : Predicates where
  occupied := .first lanes
  scopes := []
  loops := []

/-- The mask inside some scopes. -/
def maskWithin (occupied : Mask) : List Scope → Mask
  | [] => occupied
  | scope :: _ => scope.mask

/-- The running lanes inside some loops. -/
def runningWithin : List Loop → Mask
  | [] => .all
  | loop :: _ => loop.running

/-- The mask of the innermost scope. -/
def mask (predicates : Predicates) : Mask :=
  maskWithin predicates.occupied predicates.scopes

/-- The running lanes of the innermost loop. -/
def running (predicates : Predicates) : Mask :=
  runningWithin predicates.loops

/-- The lanes whose side effects count. -/
def live (predicates : Predicates) : Mask :=
  predicates.mask.both predicates.running

/-- Refuse an operation that needs an open scope or loop. -/
def missing {α : Type} (stack : MaskStack) : Except Failure α :=
  .error (.fault (.bytecode (.noScope stack)))

/-- Refuse an operation that would open one scope or loop too many. -/
def checkRoom (stack : MaskStack) (depth : Nat) : Except Failure Unit :=
  if depth + 1 < predicateCapacity then .ok ()
  else .error (.fault (.capacity (.scopes stack)))

/-- Open a scope for the lanes of a condition. -/
def maskPush (predicates : Predicates) (condition : Mask) :
    Except Failure Predicates := do
  checkRoom .condition predicates.scopes.length
  let scope := ⟨condition, predicates.mask.both condition⟩
  return { predicates with scopes := scope :: predicates.scopes }

/-- Close the innermost scope. -/
def maskPop (predicates : Predicates) : Except Failure Predicates :=
  match predicates.scopes with
  | [] => missing .condition
  | _ :: outer => .ok { predicates with scopes := outer }

/-- Run the innermost scope for the lanes that its condition left out. -/
def maskNegate (predicates : Predicates) : Except Failure Predicates :=
  match predicates.scopes with
  | [] => missing .mask
  | scope :: outer =>
      let around := maskWithin predicates.occupied outer
      let negated := { scope with mask := around.both scope.condition.complement }
      .ok { predicates with scopes := negated :: outer }

/-- Close the innermost scope and give the condition that opened it. -/
def maskBlend (predicates : Predicates) : Except Failure (Mask × Predicates) :=
  match predicates.scopes with
  | [] => missing .condition
  | scope :: outer => .ok (scope.condition, { predicates with scopes := outer })

/-- Open a loop for the lanes that run around it. -/
def loopBegin (predicates : Predicates) : Except Failure Predicates := do
  checkRoom .parked predicates.loops.length
  let loop := ⟨predicates.running, .none⟩
  return { predicates with loops := loop :: predicates.loops }

/-- Start a round with the lanes that wait for it. -/
def loopNext (predicates : Predicates) : Except Failure Predicates :=
  match predicates.loops with
  | [] => missing .loop
  | loop :: outer =>
      let resumed := ⟨loop.running.either loop.parked, .none⟩
      .ok { predicates with loops := resumed :: outer }

/-- Keep only the lanes of a mask running. -/
def loopMask (predicates : Predicates) (keep : Mask) : Except Failure Predicates :=
  match predicates.loops with
  | [] => missing .loop
  | loop :: outer =>
      let kept := { loop with running := loop.running.both keep }
      .ok { predicates with loops := kept :: outer }

/-- Close the innermost loop. -/
def loopEnd (predicates : Predicates) : Except Failure Predicates :=
  match predicates.loops with
  | [] => missing .parked
  | _ :: outer => .ok { predicates with loops := outer }

/-- Take the live lanes out of the innermost loop. -/
def loopBreak (predicates : Predicates) : Except Failure Predicates :=
  match predicates.loops with
  | [] => missing .loop
  | loop :: outer =>
      let left :=
        { loop with running := loop.running.both predicates.live.complement }
      .ok { predicates with loops := left :: outer }

/-- Let the live lanes wait for the next round of the innermost loop. -/
def loopContinue (predicates : Predicates) : Except Failure Predicates :=
  match predicates.loops with
  | [] => missing .loop
  | loop :: outer =>
      let waiting :=
        ⟨loop.running.both predicates.live.complement,
          loop.parked.either predicates.live⟩
      .ok { predicates with loops := waiting :: outer }

end Predicates

end Lockstep
