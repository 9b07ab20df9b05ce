import Lockstep.Host.Basic
import Lockstep.Scalar.Binary32

/-!
# Hosts in memory

Two kinds of external that need nothing outside the library: a table, which
answers reads from fixed entries, and a cell, which answers reads with what
was last written for the same element.  Both write every request into a
journal before they answer it, and both can be made to refuse one element.
-/

namespace Lockstep

/--
A request as the journal keeps it: whom it went to, on behalf of which element
it was made, the words handed over and the number of words asked for.
-/
structure JournalEntry where
  external : Nat
  kind : RequestKind
  element : Nat
  input : List Word
  width : Nat
deriving DecidableEq

/--
What hosts in memory remember: the requests in order, and the words last written
for each external and element.
-/
structure Memory where
  journal : Array JournalEntry := #[]
  written : List ((Nat × Nat) × List Word) := []

/-- An element whose requests are refused, and the reason given. -/
structure Refusal where
  element : Nat
  reason : String

/--
Where an external in memory takes the answers of reads from: fixed entries, used
over and over, or what was last written for the element.
-/
inductive MemoryKind where
  | table (entries : List Word)
  | cell

namespace Memory

/-- Write a request into the journal, and refuse it if its element is refused. -/
def receive (refusal : Option Refusal) (entry : JournalEntry) :
    HostAction Memory Unit := do
  modify fun memory => { memory with journal := memory.journal.push entry }
  if let some refused := refusal then
    if refused.element = entry.element then
      throw (.reason refused.reason)

/-- The words last written for an element. -/
def stored (memory : Memory) (external element : Nat) : List Word :=
  (memory.written.lookup (external, element)).getD []

/-- Remember words for an element in place of earlier ones. -/
def remember (external element : Nat) (words : List Word) (memory : Memory) : Memory :=
  let others := memory.written.filter fun entry => entry.1 != (external, element)
  { memory with written := ((external, element), words) :: others }

/-- The answer of a table to a read. -/
def tableWord (entries : List Word) (element width position : Nat) : Word :=
  entries.getD ((element * width + position) % entries.length) 0

/-- The answer to a call: the input backwards and over again, or numbers. -/
def callWord (element : Nat) (input : List Word) (position : Nat) : Word :=
  match input with
  | [] => Binary32.word (UInt64.ofNat (element * 4 + position)).toFloat32
  | _ => input.getD (input.length - 1 - position % input.length) 0

/-- An external in memory at a given position. -/
def external (position : Nat) (kind : MemoryKind) (refusal : Option Refusal) :
    External Memory where
  read := fun element width => do
    receive refusal ⟨position, .read, element, [], width⟩
    match kind with
    | .table entries =>
        return Vector.ofFn fun step => tableWord entries element width step.val
    | .cell =>
        let words := (← get).stored position element
        return Vector.ofFn fun step => words.getD step.val 0
  write := fun element input => do
    receive refusal ⟨position, .write, element, input, 0⟩
    modify (remember position element input)
  call := fun element input width => do
    receive refusal ⟨position, .call, element, input, width⟩
    return Vector.ofFn fun step => callWord element input step.val

end Memory

end Lockstep
