import WasmBackend.Diagnostic.Basic
import WasmBackend.Trace.Event
import WasmBackend.Types.Basic
import WasmBackend.Wasm.Codegen

/-!
# Emitting a unit

A unit becomes a module: imports come first in the numbering of functions, the unit's own functions
follow, and the two heap globals and the static data get the addresses planned for them.
-/

namespace WasmBackend.Wasm

open Ir (CodeUnit Function)

/-- How much memory a module asks for, in pages. -/
structure MemoryLimits where
  min : UInt32 := 1
  max : UInt32 := 1
deriving DecidableEq, Repr, Inhabited

/-- At least one page, and a maximum that is no smaller. -/
def MemoryLimits.normalized (l : MemoryLimits) : MemoryLimits :=
  let min := if l.min = 0 then 1 else l.min
  ⟨min, if l.max < min then min else l.max⟩

/-- What emission reports, and the function types used so far. -/
structure Emission where
  bag : Bag := {}
  tracer : Trace.Tracer := {}
  types : List FuncType := []
deriving Inhabited

namespace Emission

abbrev M := Stage Emission

/-- The number of a type, which is added on first use. -/
def typeIndex (t : FuncType) : M Nat := do
  let (i, types) := t.intern (← get).types
  modify fun s => { s with types := types }
  return i

/-- Number functions by name; a name that comes again takes the next number. -/
def numberFunctions (names : List Text) : List (Text × Nat) :=
  names.foldl (fun known name => assocInsert name known.length known) []

/-- The body of a function. -/
def bodyOf (u : CodeUnit) (memory : MemoryPlan) (functions : List (Text × Nat)) (parent : Nat)
    (f : Function) : M Body := do
  modify fun s => { s with tracer := s.tracer.point .task "emit" f.name parent }
  let usage ← Stage.ofExcept (Usage.ofFunction f)
  let context : CodeContext :=
    { unit := u, memory := memory, functions := functions, function := f, usage := usage }
  let (result, c) := (Codegen.body context).run.run { types := (← get).types }
  modify fun s => { s with types := c.types }
  Stage.ofExcept (result.mapError (CodeFault.failure f.name))

/-- The finding about static data that does not fit. -/
def tooSmall (needed available : UInt32) : Diagnostic :=
  .error .memoryTooSmall {}
    ("static data needs " ++ Text.ofNat needed.toNat ++ " pages but memory starts with "
      ++ Text.ofNat available.toNat)
    [⟨{}, "raise [memory] min_pages in keel.toml"⟩]

/-- The exports of a unit: the memory, then every function with an export name. -/
def exportsOf (u : CodeUnit) (functions : List (Text × Nat)) : Except Failure (List Export) := do
  let exported := u.funcs.filter fun f => !f.exportName.isEmpty
  let funcs ← exported.mapM fun f => do
    return { name := f.exportName, kind := .function,
             index := ← Codegen.functionIndex functions f.name }
  return { name := "memory", kind := .memory, index := 0 } :: funcs

/-- The module of a unit; none when its static data does not fit into the memory it starts
with. -/
def run (u : CodeUnit) (limits : MemoryLimits) (parent : Nat) : M (Option Module) := do
  let limits := limits.normalized
  let memory ← Stage.ofExcept (MemoryPlan.ofUnit u)
  if limits.min < memory.pages then
    modify fun s => { s with bag := s.bag.add (tooSmall memory.pages limits.min) }
    return none
  let functions :=
    numberFunctions (u.imports.map Ir.Import.name ++ u.funcs.map Function.name)
  let importTypes ← u.imports.mapM fun i => typeIndex (FuncType.ofSignature i.sig)
  let funcTypes ← u.funcs.mapM fun f => typeIndex (FuncType.ofSignature f.signature)
  let bodies ← u.funcs.mapM (bodyOf u memory functions parent)
  let exports ← Stage.ofExcept (exportsOf u functions)
  let elements ← Stage.ofExcept (u.table.mapM (Codegen.functionIndex functions))
  return some
    { types := (← get).types
      imports := (u.imports.zip importTypes).map fun (i, t) =>
        ⟨Ir.importModule, i.symbol, t⟩
      functions := funcTypes
      tableSize := u.table.length
      minPages := limits.min
      maxPages := limits.max
      globals := [⟨false, memory.heapBase⟩, ⟨true, memory.heapBase⟩]
      exports := exports
      elements := elements
      bodies := bodies
      data := (u.segments.zip memory.segments).map fun (bytes, a) => ⟨a, bytes⟩ }

end Emission

end WasmBackend.Wasm
