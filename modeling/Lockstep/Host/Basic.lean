import Lockstep.Failure

/-!
# Hosts

A program may hand values to its host and take values from it.  The host is a
list of externals over one state: each external answers requests for one
element at a time, may change the state, and may refuse.  A refusal keeps what
the state became.

`Session` is the setting in which instructions meet the host: a computation
that may fail and that carries the state of the host along either way.
-/

namespace Lockstep

/-- Answers of a host that carries its state along. -/
abbrev HostAction (σ α : Type) : Type := ExceptT HostError (StateM σ) α

/--
Something outside the program that answers requests.  It gives a number of
words for an element, takes words, or takes words and gives some back.
-/
structure External (σ : Type) where
  read : (element width : Nat) → HostAction σ (Vector Word width) :=
    fun _ _ => throw (.reason "external value does not support read")
  write : (element : Nat) → List Word → HostAction σ Unit :=
    fun _ _ => throw (.reason "external value does not support write")
  call : (element : Nat) → List Word → (width : Nat) → HostAction σ (Vector Word width) :=
    fun _ _ _ => throw (.reason "external value is not callable")

/-- The external that refuses every request. -/
def External.plain {σ : Type} : External σ := {}

/-- What runs against a host with state `σ`. -/
abbrev Session (σ α : Type) : Type := ExceptT Failure (StateM σ) α

/-- A result that does not involve the host. -/
def Session.ofExcept {σ α : Type} (result : Except Failure α) : Session σ α :=
  ExceptT.mk (pure result)

/-- The three kinds of request. -/
inductive RequestKind where
  | read
  | write
  | call
deriving DecidableEq

/-- The word for a kind of request. -/
def RequestKind.name : RequestKind → String
  | .read => "read"
  | .write => "write"
  | .call => "call"

/-- Ask the host on behalf of one element, and name the request if it refuses. -/
def Session.ask {σ α : Type} (kind : RequestKind) (external element : Nat)
    (action : HostAction σ α) : Session σ α :=
  ExceptT.mk do
    match ← action.run with
    | .ok answer => return .ok answer
    | .error error =>
        return .error (.external (.context
          s!"external {external} {kind.name} for element {element}" error))

end Lockstep
