import Lockstep.Assembler
import Lockstep.Draft
import Lockstep.Failure
import Lockstep.Host.Basic
import Lockstep.Host.Memory
import Lockstep.Instruction.Basic
import Lockstep.Instruction.Decode
import Lockstep.Invocation
import Lockstep.Json.Basic
import Lockstep.Json.Parser
import Lockstep.Json.Printer
import Lockstep.Json.Token
import Lockstep.Kernel
import Lockstep.Lanes
import Lockstep.Limits
import Lockstep.Machine.Basic
import Lockstep.Machine.Control
import Lockstep.Machine.Memory
import Lockstep.Machine.Sink
import Lockstep.Machine.Step
import Lockstep.Matrix
import Lockstep.Opcode
import Lockstep.Predicates
import Lockstep.Program.Basic
import Lockstep.Program.Document
import Lockstep.Program.Summary
import Lockstep.Program.Verifier
import Lockstep.RegisterFile
import Lockstep.Scalar.Binary32
import Lockstep.Scalar.Operation
import Lockstep.Proofs.Operands
import Lockstep.Proofs.Slots
import Lockstep.Proofs.Runs
import Lockstep.Proofs.Decoding
import Lockstep.Proofs.Effects
import Lockstep.Proofs.Invariant
import Lockstep.Proofs.Acceptance
import Lockstep.Proofs.Kernels
import Lockstep.Proofs.Service
import Lockstep.Proofs.Sinks
import Lockstep.Proofs.Entry
import Lockstep.Proofs.Safety
import Lockstep.Proofs.Verification
import Lockstep.Proofs.Mirroring
import Lockstep.Proofs.MirroredSteps
import Lockstep.Proofs.Striping
import Lockstep.Proofs.SingleLane
import Lockstep.Proofs.UniformControl
import Lockstep.Proofs.Structured
import Lockstep.Proofs.Framing
import Lockstep.Proofs.Blocks
import Lockstep.Proofs.LaneTracking
import Lockstep.Proofs.LoopTracking
import Lockstep.Proofs.BlockSteps
import Lockstep.Proofs.StructuredControl
import Lockstep.Proofs.MaskedSteps
import Lockstep.Proofs.CallDiscipline
import Lockstep.Proofs.Documents
import Lockstep.Proofs.Elements
import Lockstep.Proofs.LaneExecution
import Lockstep.Proofs.LoopExecution
import Lockstep.Proofs.ScalarControl
import Lockstep.Proofs.Encoding
import Lockstep.Proofs.WellFormedness
import Lockstep.Proofs.Assembly
import Lockstep.Proofs.Drafts
import Lockstep.Proofs.Chunking
import Lockstep.Proofs.Journal
import Lockstep.Proofs.Padding
import Lockstep.Proofs.MaskStacks
import Lockstep.Proofs.LaneStates
import Lockstep.Proofs.DomesticFailures
import Lockstep.Proofs.HostRequests
import Lockstep.Proofs.Termination
import Lockstep.Proofs.HostCalls
import Lockstep.Proofs.AssemblyVerification
import Lockstep.Proofs.Atomicity
import Lockstep.Proofs.EntryPoints
import Lockstep.Proofs.IdleCode
import Lockstep.Proofs.MaskedDivision
import Lockstep.Proofs.IndexedAccess
import Lockstep.Proofs.Strictness
import Lockstep.Proofs.Presentation
import Lockstep.Proofs.Refusals
import Lockstep.Proofs.StaleRegisters
import Lockstep.Proofs.MatrixInverses
import Lockstep.Proofs.MatrixResizing
import Lockstep.Proofs.StackEffects
