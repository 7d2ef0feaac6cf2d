import WasmBackend.DeadCode
import WasmBackend.Lowering.Unit
import WasmBackend.Plan.Schedule
import WasmBackend.SingleAssignment.Conversion
import WasmBackend.Wasm.Emit

/-!
# Compiling a program

A compilation runs five phases one after the other.  Findings about the source go into a bag and
end the compilation behind the phase that reported an error; a broken invariant or a cancelled run
ends it at once.  What was reported and traced up to there stays.
-/

namespace WasmBackend

/-- The phases of a compilation in order. -/
inductive Phase where
  | schedule
  | layout
  | lower
  | singleAssignment
  | codegen
deriving DecidableEq, Repr, Inhabited

namespace Phase

def name : Phase → Text
  | schedule => "schedule"
  | layout => "layout"
  | lower => "lower"
  | singleAssignment => "ssa"
  | codegen => "codegen"

/-- All phases in order. -/
def all : List Phase :=
  [schedule, layout, lower, singleAssignment, codegen]

end Phase

structure CompileOptions where
  /-- The export name of the entry; empty for the default. -/
  entryExport : Text := defaultEntryExport
  memory : Wasm.MemoryLimits := {}
  /-- How many diagnostics are kept; 0 or below for all. -/
  maxDiagnostics : Int := 0
  /-- Whether the run is cancelled by the time a phase is to start. -/
  canceled : Phase → Bool := fun _ => false

/-- What a compilation leaves behind however it ends. -/
structure Compilation where
  bag : Bag := {}
  tracer : Trace.Tracer := {}
  /-- The phases that ran, each with whether it failed. -/
  phases : List (Phase × Bool) := []
deriving Inhabited

/-- What a compilation that was not stopped gives. -/
structure Compiled where
  /-- The unit, once the program was lowered. -/
  unit : Option Ir.CodeUnit := none
  /-- The module, unless an error was reported. -/
  module : Option Wasm.Module := none
  removed : DeadCode.Removed := {}
deriving Inhabited

namespace Compilation

abbrev M := Stage Compilation

/-- Run a phase inside a span of its own; `run` gets the span. -/
def phase {α : Type} (o : CompileOptions) (parent : Nat) (p : Phase) (run : Nat → M α) : M α := do
  if o.canceled p then throw .canceled
  let (tracer, span) := (← get).tracer.enter .pass p.name parent
  modify fun s => { s with tracer := tracer }
  fun s =>
    let (result, s) := (run span.id).runFrom s
    let failed := !result.isOk
    (result,
      { s with
        phases := s.phases ++ [(p, failed)]
        tracer := s.tracer.leave span (if failed then "failed" else "") })

/-- Find out what to compile. -/
def schedule (p : Program) (o : CompileOptions) (span : Nat) : M (Plan × Layouts) := do
  let s ← get
  let (plan, scheduler) :=
    (Scheduler.run o.entryExport span).runFrom (Scheduler.ofProgram p s.bag s.tracer)
  modify fun s => { s with bag := scheduler.bag, tracer := scheduler.tracer }
  return (← Stage.ofExcept plan, scheduler.layouts)

/-- Lay out all types; those that have no layout are reported and come with the others. -/
def layOut (layouts : Layouts) : M (TypeStore × List Handle) := do
  let (left, layouts) := Layouts.resolve.runFrom layouts
  let left ← Stage.ofExcept left
  modify fun s => { s with bag := left.foldl (fun b (_, d) => b.add d) s.bag }
  return (layouts.store, left.map Prod.fst)

/-- Lower the plan. -/
def lower (plan : Plan) (store : TypeStore) (o : CompileOptions) (span : Nat) : M Ir.CodeUnit := do
  let s ← get
  let (unit, l) :=
    (Lowering.run plan o.entryExport span).runFrom
      { store := store, bag := s.bag, tracer := s.tracer }
  modify fun s => { s with bag := l.bag, tracer := l.tracer }
  Stage.ofExcept unit

/-- Trace a block of a finished function. -/
def traceBlock (f : Ir.Function) (span : Nat) (id : Ir.BlockId) : M Unit := do
  let b ← Stage.some! (f.block? id)
  modify fun s =>
    { s with
      tracer := s.tracer.point .node "block" ("b" ++ Text.ofNat id ++ " " ++ b.kind.name) span }

/-- Bring a function into single-assignment form and remove its dead code. -/
def optimize (parent : Nat) (f : Ir.Function) : M (Ir.Function × DeadCode.Removed) := do
  let (tracer, span) := (← get).tracer.enter .task f.name parent
  modify fun s => { s with tracer := tracer }
  let (converted, graph) ← Stage.ofExcept (SingleAssignment.convert f)
  let (pruned, removed) ← Stage.ofExcept (DeadCode.prune converted (some graph))
  pruned.body.forM (traceBlock pruned span.id)
  let span := (span.attr "pruned_instrs" (Text.ofNat removed.instrs)).attr "pruned_copies"
    (Text.ofNat removed.copies)
  modify fun s => { s with tracer := s.tracer.leave span "" }
  return (pruned, removed)

/-- Optimise every function of a unit. -/
def optimizeUnit (u : Ir.CodeUnit) (span : Nat) : M (Ir.CodeUnit × DeadCode.Removed) := do
  let results ← u.funcs.mapM (optimize span)
  return ({ u with funcs := results.map Prod.fst },
    (results.map Prod.snd).foldl DeadCode.Removed.add {})

/-- Emit the module of a unit. -/
def emit (u : Ir.CodeUnit) (o : CompileOptions) (span : Nat) : M (Option Wasm.Module) := do
  let s ← get
  let (module, e) :=
    (Wasm.Emission.run u o.memory span).runFrom { bag := s.bag, tracer := s.tracer }
  modify fun s => { s with bag := e.bag, tracer := e.tracer }
  Stage.ofExcept module

/-- Run the phases before code generation: they give the unit that code is to be generated for, or
what the compilation ends with. -/
def prepare (p : Program) (o : CompileOptions) (parent : Nat) :
    M (Except Compiled (Ir.CodeUnit × DeadCode.Removed)) := do
  let (plan, layouts) ← phase o parent .schedule (schedule p o)
  let (store, _) ← phase o parent .layout fun _ => layOut layouts
  if (← get).bag.hasErrors then return .error {}
  let unit ← phase o parent .lower (lower plan store o)
  if (← get).bag.hasErrors then return .error { unit := some unit }
  return .ok (← phase o parent .singleAssignment (optimizeUnit unit))

/-- Run the phases. -/
def runPhases (p : Program) (o : CompileOptions) (parent : Nat) : M Compiled := do
  match ← prepare p o parent with
  | .error stopped => return stopped
  | .ok (unit, removed) =>
    let module ← phase o parent .codegen (emit unit o)
    if (← get).bag.hasErrors then return { unit := some unit, removed := removed }
    return { unit := some unit, module := module, removed := removed }

/-- What the trace says about the end of a compilation. -/
def outcome (result : Except Failure Compiled) (bag : Bag) : Text :=
  if !result.isOk then "internal error"
  else if bag.hasErrors then Text.ofNat bag.items.length ++ " diagnostics"
  else "ok"

end Compilation

/-- Compile a program; trace events go below the span `parent`. -/
def compile (p : Program) (o : CompileOptions) (tracer : Trace.Tracer := {}) (parent : Nat := 0) :
    Except Failure Compiled × Compilation :=
  let o := if o.entryExport = "" then { o with entryExport := defaultEntryExport } else o
  let (tracer, span) := tracer.enter .driver "compile" parent
  let (result, s) :=
    (Compilation.runPhases p o span.id).runFrom
      { bag := Bag.ofLimit o.maxDiagnostics, tracer := tracer }
  (result, { s with tracer := s.tracer.leave span (Compilation.outcome result s.bag) })

end WasmBackend
