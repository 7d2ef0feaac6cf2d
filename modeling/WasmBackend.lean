import WasmBackend.Build.Progress
import WasmBackend.Build.Run
import WasmBackend.CommandLine.Command
import WasmBackend.CommandLine.Flag
import WasmBackend.CommandLine.Help
import WasmBackend.CommandLine.Session
import WasmBackend.Compilation
import WasmBackend.DeadCode
import WasmBackend.Diagnostic.Basic
import WasmBackend.Diagnostic.Report
import WasmBackend.Double.Basic
import WasmBackend.Double.Decimal
import WasmBackend.Failure
import WasmBackend.Files.Basic
import WasmBackend.Files.Glob
import WasmBackend.Files.Tree
import WasmBackend.Flow.Graph
import WasmBackend.Ir.CodeUnit
import WasmBackend.Ir.Function
import WasmBackend.Ir.Instr
import WasmBackend.Ir.Invariant
import WasmBackend.Ir.Listing
import WasmBackend.Ir.Validate
import WasmBackend.Json
import WasmBackend.Layout
import WasmBackend.Lowering.Expr
import WasmBackend.Lowering.Stmt
import WasmBackend.Lowering.Unit
import WasmBackend.Lowering.Value
import WasmBackend.Main
import WasmBackend.Manifest
import WasmBackend.Moment
import WasmBackend.Path
import WasmBackend.Plan.Schedule
import WasmBackend.Plan.Task
import WasmBackend.Prim
import WasmBackend.Program.Basic
import WasmBackend.Program.Build
import WasmBackend.Program.Kinds
import WasmBackend.Program.Stored
import WasmBackend.Program.Visit
import WasmBackend.Proofs.Acceptance
import WasmBackend.Proofs.CommandLine.Outputs
import WasmBackend.Proofs.Confinement
import WasmBackend.Proofs.DeadCode.Dropping
import WasmBackend.Proofs.DeadCode.Liveness
import WasmBackend.Proofs.DeadCode.Preservation
import WasmBackend.Proofs.DeadCode.Remaining
import WasmBackend.Proofs.DeadCode.Sweeping
import WasmBackend.Proofs.DeadCode.Trimming
import WasmBackend.Proofs.Diagnostic.Bags
import WasmBackend.Proofs.Diagnostic.Reporting
import WasmBackend.Proofs.DiagnosticLimit
import WasmBackend.Proofs.Execution
import WasmBackend.Proofs.Files
import WasmBackend.Proofs.Flow.Control
import WasmBackend.Proofs.Flow.Exactness
import WasmBackend.Proofs.Flow.Joins
import WasmBackend.Proofs.Flow.Placement
import WasmBackend.Proofs.Flow.Reachability
import WasmBackend.Proofs.Flow.Totality
import WasmBackend.Proofs.Flow.Wiring
import WasmBackend.Proofs.Layout.Circularity
import WasmBackend.Proofs.Layout.Cycles
import WasmBackend.Proofs.Layout.Histories
import WasmBackend.Proofs.Layout.LeftOver
import WasmBackend.Proofs.Layout.Overlap
import WasmBackend.Proofs.Layout.Packing
import WasmBackend.Proofs.Layout.Resolving
import WasmBackend.Proofs.Layout.Settling
import WasmBackend.Proofs.Layout.Tiling
import WasmBackend.Proofs.Lookups
import WasmBackend.Proofs.Lowering.AbsoluteValue
import WasmBackend.Proofs.Lowering.AddedCode
import WasmBackend.Proofs.Lowering.Allocator
import WasmBackend.Proofs.Lowering.Assigning
import WasmBackend.Proofs.Lowering.Constructs
import WasmBackend.Proofs.Lowering.Defining
import WasmBackend.Proofs.Lowering.Enlarging
import WasmBackend.Proofs.Lowering.Expressions
import WasmBackend.Proofs.Lowering.Finished
import WasmBackend.Proofs.Lowering.Fitting
import WasmBackend.Proofs.Lowering.Frames
import WasmBackend.Proofs.Lowering.Linking
import WasmBackend.Proofs.Lowering.LinkingCode
import WasmBackend.Proofs.Lowering.LinkingUnits
import WasmBackend.Proofs.Lowering.Numberings
import WasmBackend.Proofs.Lowering.Origins
import WasmBackend.Proofs.Lowering.OwnCode
import WasmBackend.Proofs.Lowering.Places
import WasmBackend.Proofs.Lowering.Putting
import WasmBackend.Proofs.Lowering.Reporting
import WasmBackend.Proofs.Lowering.ReportingCode
import WasmBackend.Proofs.Lowering.Results
import WasmBackend.Proofs.Lowering.ShortCircuit
import WasmBackend.Proofs.Lowering.SingleResults
import WasmBackend.Proofs.Lowering.Statements
import WasmBackend.Proofs.Lowering.Underway
import WasmBackend.Proofs.Lowering.Units
import WasmBackend.Proofs.Lowering.Values
import WasmBackend.Proofs.Lowering.WellShaped
import WasmBackend.Proofs.Lowering.Writes
import WasmBackend.Proofs.Lowering.Writing
import WasmBackend.Proofs.Plan.Endless
import WasmBackend.Proofs.Plan.Finished
import WasmBackend.Proofs.Plan.Following
import WasmBackend.Proofs.Plan.Limit
import WasmBackend.Proofs.Plan.Reachable
import WasmBackend.Proofs.Plan.Reporting
import WasmBackend.Proofs.Plan.Scheduling
import WasmBackend.Proofs.Plan.Tasks
import WasmBackend.Proofs.PreparedUnits
import WasmBackend.Proofs.Program.Occurrences
import WasmBackend.Proofs.Program.ReadBack
import WasmBackend.Proofs.Shape
import WasmBackend.Proofs.Simulation
import WasmBackend.Proofs.SingleAssignment.Convergence
import WasmBackend.Proofs.SingleAssignment.Definitions
import WasmBackend.Proofs.SingleAssignment.Fixpoint
import WasmBackend.Proofs.SingleAssignment.Heads
import WasmBackend.Proofs.SingleAssignment.Looks
import WasmBackend.Proofs.SingleAssignment.Names
import WasmBackend.Proofs.SingleAssignment.Naming
import WasmBackend.Proofs.SingleAssignment.Outcome
import WasmBackend.Proofs.SingleAssignment.Preservation
import WasmBackend.Proofs.SingleAssignment.Rewriting
import WasmBackend.Proofs.SingleAssignment.Variables
import WasmBackend.Proofs.Stage
import WasmBackend.Proofs.Storage.Elements
import WasmBackend.Proofs.Storage.Records
import WasmBackend.Proofs.Storage.RoundTrip
import WasmBackend.Proofs.Trace.NewestEvents
import WasmBackend.Proofs.Tree
import WasmBackend.Proofs.Trimmed
import WasmBackend.Proofs.Types.Buildable
import WasmBackend.Proofs.Types.Building
import WasmBackend.Proofs.Types.Descent
import WasmBackend.Proofs.Types.Ground
import WasmBackend.Proofs.Types.Growth
import WasmBackend.Proofs.Types.Handles
import WasmBackend.Proofs.Types.Names
import WasmBackend.Proofs.Types.Operations
import WasmBackend.Proofs.Types.Templates
import WasmBackend.Proofs.Validity
import WasmBackend.Proofs.Wasm.Emitted
import WasmBackend.Proofs.Wasm.FunctionTypes
import WasmBackend.Proofs.Wasm.GeneratedCode
import WasmBackend.Proofs.Wasm.InitialMemory
import WasmBackend.Proofs.Wasm.InstructionReading
import WasmBackend.Proofs.Wasm.ModuleReading
import WasmBackend.Proofs.Wasm.Reading
import WasmBackend.Proofs.Wasm.Residence
import WasmBackend.Proofs.Wasm.Scheduling
import WasmBackend.Proofs.Wasm.Scope
import WasmBackend.Proofs.Wasm.ShortestNumbers
import WasmBackend.Proofs.Wasm.StaticMemory
import WasmBackend.Proofs.Wasm.TreeCode
import WasmBackend.Proofs.Wasm.Unstuck
import WasmBackend.Proofs.Wasm.ValidModules
import WasmBackend.Proofs.Wasm.Validation
import WasmBackend.Samples
import WasmBackend.Sha256
import WasmBackend.SingleAssignment.Conversion
import WasmBackend.SingleAssignment.Renaming
import WasmBackend.Source
import WasmBackend.Storage.MessagePack
import WasmBackend.Storage.Shape
import WasmBackend.Terminal
import WasmBackend.Terminal.Block
import WasmBackend.Terminal.Sequence
import WasmBackend.Terminal.Wrap
import WasmBackend.Text
import WasmBackend.Text.Canonical
import WasmBackend.Text.CanonicalData
import WasmBackend.Text.Cluster
import WasmBackend.Text.Lowercase
import WasmBackend.Text.Numeral
import WasmBackend.Text.Printable
import WasmBackend.Text.Table
import WasmBackend.Text.Utf8
import WasmBackend.Text.WidthData
import WasmBackend.Timing
import WasmBackend.Toml.Document
import WasmBackend.Toml.Reader
import WasmBackend.Toml.Value
import WasmBackend.Trace.Event
import WasmBackend.Trace.Sink
import WasmBackend.Types.Basic
import WasmBackend.Types.Store
import WasmBackend.Version
import WasmBackend.Wasm.Codegen
import WasmBackend.Wasm.Emit
import WasmBackend.Wasm.Instruction
import WasmBackend.Wasm.Memory
import WasmBackend.Wasm.Module
import WasmBackend.Wasm.Selection
import WasmBackend.Wasm.Usage
