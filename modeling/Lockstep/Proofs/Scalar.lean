import Lockstep.Proofs.Structured

/-!
# Blocks without masks

The meaning of structured code for a single element: a condition chooses the
part that is carried out, a loop goes on while its condition holds, and leaving
a loop or going on with its next round passes over what is left of the body.
There are no masks and no other elements.

`Element.step?` carries out an instruction and `Element.Executes` a block, which
may end in the middle of a loop.  The end of a round cuts the operands back to
those at its start.  `Element.Executes.unique` says that the outcome of a block
is determined.
-/

namespace Lockstep

/-- The state of one element on its own. -/
structure Element where
  /-- The slots of its frame. -/
  slots : List Word
  /-- Its globals. -/
  globals : List Word
  /-- Its operands, the lowest first. -/
  operands : List Word
deriving DecidableEq

/-- The results of a kernel for one element; a result that is not given is zero. -/
def Kernel.column (kernel : Kernel) (words : List Word) : Option (List Word) :=
  (kernel.eval words).map fun column =>
    (List.range kernel.results).map fun position => column.getD position 0

/-- Words of which a run has been replaced. -/
def splice (words : List Word) (start : Nat) (run : List Word) : List Word :=
  words.take start ++ (run ++ words.drop (start + run.length))

/-- The slot that a word points to, if it is not negative. -/
def index? (word : Word) : Option Nat :=
  if 0 ≤ (signedIndex word).toInt then some (Machine.indexSlot word) else none

namespace Element

/-! ## Instructions -/

/-- The topmost operands, and the element without them. -/
def take? (element : Element) (count : Nat) : Option (List Word × Element) :=
  let kept := element.operands.length - count
  if count ≤ element.operands.length then
    some (element.operands.drop kept,
      { element with operands := element.operands.take kept })
  else none

/-- The element with results on its operands. -/
def push (element : Element) (results : List Word) : Element :=
  { element with operands := element.operands ++ results }

/-- The words of a space. -/
def words (element : Element) (uniforms : List Word) : Space → List Word
  | .local => element.slots
  | .global => element.globals
  | .uniform => uniforms

/-- Read a run of slots. -/
def read? (element : Element) (uniforms : List Word) (space : Space) (slot count : Nat) :
    Option (List Word) :=
  let all := element.words uniforms space
  if slot + count ≤ all.length then some ((all.drop slot).take count) else none

/-- Write a run of slots. -/
def write? (element : Element) (bank : Bank) (slot : Nat) (run : List Word) :
    Option Element :=
  match bank with
  | .local =>
      if slot + run.length ≤ element.slots.length then
        some { element with slots := splice element.slots slot run }
      else none
  | .global =>
      if slot + run.length ≤ element.globals.length then
        some { element with globals := splice element.globals slot run }
      else none

/-- Run a kernel on the operands. -/
def compute? (element : Element) (kernel : Kernel) : Option Element := do
  let (words, below) ← element.take? kernel.operands
  return (if kernel.keep then element else below).push (← kernel.column words)

/-- Divide two vectors. -/
def divide? (element : Element) (operation : Division) (count : Nat) : Option Element := do
  let (words, below) ← element.take? (2 * count)
  let divisors := words.drop count
  if 0 ∈ divisors then none
  else return below.push (List.zipWith operation.eval (words.take count) divisors)

/-- Push a fixed run of slots. -/
def load? (element : Element) (uniforms : List Word) (space : Space) (count slot : Nat) :
    Option Element := do
  return element.push (← element.read? uniforms space slot count)

/-- Pop into a fixed run of slots. -/
def store? (element : Element) (bank : Bank) (count slot : Nat) : Option Element := do
  let (words, below) ← element.take? count
  below.write? bank slot words

/-- Replace an index by the run of slots that starts there. -/
def gather? (element : Element) (uniforms : List Word) (space : Space) (count : Nat) :
    Option Element := do
  let (index, below) ← element.take? 1
  let slot ← index? (index.headD 0)
  return below.push (← below.read? uniforms space slot count)

/-- Pop into the run of slots that starts at an index. -/
def scatter? (element : Element) (bank : Bank) (count : Nat) : Option Element := do
  let (index, below) ← element.take? 1
  let slot ← index? (index.headD 0)
  let (words, rest) ← below.take? count
  rest.write? bank slot words

/-- Refuse an index that is not below a length. -/
def clampIndex? (element : Element) (length : Nat) : Option Element := do
  let (index, _) ← element.take? 1
  let slot ← index? (index.headD 0)
  if slot < length then some element else none

/-- Carry out an instruction that neither branches nor touches predicates or the host. -/
def step? (uniforms : List Word) (element : Element) : Instruction → Option Element
  | .compute computation => element.compute? computation.kernel
  | .divide operation count => element.divide? operation count.toNat
  | .shift operation amount =>
      match checkShift operation amount with
      | .ok () => element.compute? (operation.kernel amount)
      | .error _ => none
  | .load space count slot => element.load? uniforms space count.toNat slot.toNat
  | .store bank count slot => element.store? bank count.toNat slot.toNat
  | .gather space count => element.gather? uniforms space count.toNat
  | .scatter bank count => element.scatter? bank count.toNat
  | .clampIndex length => element.clampIndex? length.toNat
  | _ => none

/-! ## Blocks -/

/-- Take a condition off the operands. -/
def test? (element : Element) : Option (Bool × Element) := do
  let (condition, below) ← element.take? 1
  return (condition.headD 0 != 0, below)

/-- An element with its operands cut back to those that it had before. -/
def back (element before : Element) : Element :=
  { element with operands := before.operands }

end Element

/-- How a block ends. -/
inductive Exit where
  /-- At its end. -/
  | normal
  /-- By leaving the innermost loop. -/
  | leave
  /-- By going on with the next round of the innermost loop. -/
  | again
deriving DecidableEq

namespace Element

/-- What a block makes of an element. -/
inductive Executes (uniforms : List Word) : Block → Element → Exit → Element → Prop
  | skip {element : Element} : Executes uniforms .skip element .normal element
  | plain {instruction : Instruction} {before after : Element}
      (stepped : before.step? uniforms instruction = some after) :
      Executes uniforms (.plain instruction) before .normal after
  | seq {first second : Block} {before middle after : Element} {exit : Exit}
      (begun : Executes uniforms first before .normal middle)
      (continued : Executes uniforms second middle exit after) :
      Executes uniforms (.seq first second) before exit after
  | seqExit {first second : Block} {before after : Element} {exit : Exit}
      (begun : Executes uniforms first before exit after) (exits : exit ≠ .normal) :
      Executes uniforms (.seq first second) before exit after
  | guarded {body : Block} {before after : Element} {exit : Exit}
      (ran : Executes uniforms body before exit after) :
      Executes uniforms (.guarded body) before exit after
  | when {body : Block} {before inner after : Element} {holds : Bool} {exit : Exit}
      (tested : before.test? = some (holds, inner))
      (ran : Executes uniforms (if holds then body else .skip) inner exit after) :
      Executes uniforms (.when body) before exit after
  | choose {body otherwise : Block} {before inner after : Element} {holds : Bool}
      {exit : Exit} (tested : before.test? = some (holds, inner))
      (ran : Executes uniforms (if holds then body else otherwise) inner exit after) :
      Executes uniforms (.choose body otherwise) before exit after
  | blend {count : UInt8} {body otherwise : Block} {before inner after : Element}
      {holds : Bool} {exit : Exit} (tested : before.test? = some (holds, inner))
      (ran : Executes uniforms (if holds then body else otherwise) inner exit after) :
      Executes uniforms (.blend count body otherwise) before exit after
  /-- The condition does not hold any more. -/
  | loopDone {condition body step : Block} {before done after : Element}
      (ranCondition : Executes uniforms condition before .normal done)
      (tested : done.test? = some (false, after)) :
      Executes uniforms (.loop condition body step) before .normal after
  /-- The body comes to its end or is cut short, and another round follows. -/
  | loopRound {condition body step : Block} {before done inner last next after : Element}
      {exit : Exit} (ranCondition : Executes uniforms condition before .normal done)
      (tested : done.test? = some (true, inner))
      (ranBody : Executes uniforms body inner exit last) (stays : exit ≠ .leave)
      (ranStep : Executes uniforms step (last.back before) .normal next)
      (rest : Executes uniforms (.loop condition body step) next .normal after) :
      Executes uniforms (.loop condition body step) before .normal after
  | loopLeft {condition body step : Block} {before done inner last : Element}
      (ranCondition : Executes uniforms condition before .normal done)
      (tested : done.test? = some (true, inner))
      (ranBody : Executes uniforms body inner .leave last) :
      Executes uniforms (.loop condition body step) before .normal (last.back before)
  /-- A loop may be left from its condition and from its step too. -/
  | loopLeftEarly {condition body step : Block} {before done : Element}
      (ranCondition : Executes uniforms condition before .leave done) :
      Executes uniforms (.loop condition body step) before .normal (done.back before)
  | loopLeftLate {condition body step : Block} {before done inner last next : Element}
      {exit : Exit} (ranCondition : Executes uniforms condition before .normal done)
      (tested : done.test? = some (true, inner))
      (ranBody : Executes uniforms body inner exit last) (stays : exit ≠ .leave)
      (ranStep : Executes uniforms step (last.back before) .leave next) :
      Executes uniforms (.loop condition body step) before .normal (next.back before)
  | leave {element : Element} : Executes uniforms .leave element .leave element
  | again {element : Element} : Executes uniforms .again element .again element

/-- A block has one outcome. -/
theorem Executes.unique {uniforms : List Word} {block : Block} {before after other : Element}
    {exit way : Exit} (ran : Executes uniforms block before exit after)
    (again : Executes uniforms block before way other) : way = exit ∧ other = after := by
  induction ran generalizing way other with
  | skip =>
      cases again
      exact ⟨rfl, rfl⟩
  | plain stepped =>
      cases again
      grind
  | seq begun continued firstUnique secondUnique =>
      cases again <;> grind
  | seqExit begun exits firstUnique =>
      cases again <;> grind
  | guarded ran bodyUnique =>
      cases again
      grind
  | when tested ran partUnique =>
      cases again
      grind
  | choose tested ran partUnique =>
      cases again
      grind
  | blend tested ran partUnique =>
      cases again
      grind
  | loopDone ranCondition tested conditionUnique =>
      cases again <;> grind
  | loopRound ranCondition tested ranBody stays ranStep rest conditionUnique bodyUnique
      stepUnique restUnique =>
      cases again <;> grind
  | loopLeft ranCondition tested ranBody conditionUnique bodyUnique =>
      cases again <;> grind
  | loopLeftEarly ranCondition conditionUnique =>
      cases again <;> grind
  | loopLeftLate ranCondition tested ranBody stays ranStep conditionUnique bodyUnique
      stepUnique =>
      cases again <;> grind
  | leave =>
      cases again
      exact ⟨rfl, rfl⟩
  | again =>
      cases again
      exact ⟨rfl, rfl⟩

end Element

end Lockstep
