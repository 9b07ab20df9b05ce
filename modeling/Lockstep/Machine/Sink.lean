import Lockstep.Machine.Step

/-!
# Return sinks

The step that returns from the outermost function also hands its registers to
the caller: it writes them into the caller's buffers through a sink.  A sink
refuses buffers that are too small, and what it has written before it refuses
stays written.

There are three sinks.  One collects the words of each element next to each
other, one puts them into a column for each returned register, and one drops
them.
-/

namespace Lockstep

/-- One word for each element. -/
abbrev Column : Type := List Word

variable {σ ρ α : Type}

/-! ## Buffers in place -/

/-- A list with one entry replaced, which has to be there. -/
def replaceAt (entries : List α) (position : Nat) (entry : α) : Except Failure (List α) :=
  if position < entries.length then .ok (entries.set position entry) else .error .trap

/-- Write one word of a buffer. -/
def writeWord (position : Nat) (word : Word) : Session (List Word) Unit := do
  set (← Session.ofExcept (replaceAt (← get) position word))

/-- The column at a position, which has to be there. -/
def columnAt (position : Nat) : Session (List Column) Column := do
  Session.ofExcept (orTrap (← get)[position]?)

/-- Write one word of a column. -/
def writeEntry (position element : Nat) (word : Word) : Session (List Column) Unit := do
  let column ← columnAt position
  let changed ← Session.ofExcept (replaceAt column element word)
  modify (·.set position changed)

/-- The word of the lane with a given number, which has to be there. -/
def wordOf (register : Register) (number : Nat) : Except Failure Word :=
  orTrap (register.get? number)

/-! ## Sinks -/

/-- What takes the registers of the outermost return. -/
abbrev Sink (ρ : Type) : Type := List Register → Session ρ Unit

namespace Sink

/--
Collect the words of each element next to each other: with `count` registers,
the word of register `slot` in lane `lane` goes to `lane * count + slot`.
-/
def interleaved (lanes : Nat) : Sink (List Word) := fun returned => do
  let held := (← get).length
  let needed := returned.length * lanes
  if held < needed then
    throw (.fault (.shape (.returnBuffer held needed)))
  returned.zipIdx.forM fun (register, slot) =>
    (List.range lanes).forM fun lane => do
      let word ← Session.ofExcept (wordOf register lane)
      writeWord (lane * returned.length + slot) word

/--
Put the words of each register into a column of its own, starting at an offset.
The columns are checked one by one, each right before it is written.
-/
def striped (offset lanes : Nat) : Sink (List Column) := fun returned => do
  let given := (← get).length
  if given < returned.length then
    throw (.fault (.shape (.returnColumns given returned.length)))
  returned.zipIdx.forM fun (register, slot) => do
    let held := (← columnAt slot).length
    if held < offset + lanes then
      throw (.fault (.shape (.returnColumn slot held (offset + lanes))))
    (List.range lanes).forM fun lane => do
      let word ← Session.ofExcept (wordOf register lane)
      writeEntry slot (offset + lane) word

/-- Drop what is returned. -/
def discard : Sink ρ := fun _ => return ()

end Sink

/-! ## Running into a sink -/

/-- What a session does to the host, beside buffers that it does not touch. -/
def Session.onHost (session : Session σ α) : Session (σ × ρ) α :=
  ExceptT.mk fun (host, buffers) =>
    let (result, later) := session.run host
    (result, later, buffers)

/-- What a session does to buffers, beside a host that it does not touch. -/
def Session.onBuffers (session : Session ρ α) : Session (σ × ρ) α :=
  ExceptT.mk fun (host, buffers) =>
    let (result, later) := session.run buffers
    (result, host, later)

namespace Machine

/-- Carry out the next instruction; the outermost return writes into a sink. -/
def stepInto (machine : Machine) (batch : Batch σ) (sink : Sink ρ) :
    Session (σ × ρ) Flow := do
  let flow ← (machine.step batch).onHost
  if let .done _ returned := flow then
    (sink returned).onBuffers
  return flow

/-- Run a machine into a sink. -/
def runInto (batch : Batch σ) (sink : Sink ρ) : Nat → Machine → StateM (σ × ρ)
    (Option (Except Failure (Machine × List Register))) :=
  iterate fun machine => machine.stepInto batch sink

end Machine

end Lockstep
