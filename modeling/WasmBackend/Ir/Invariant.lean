import WasmBackend.Ir.Validate

/-!
# Finished units

What holds of every unit that code is generated for: its block trees are valid, every variable has
at most one definition, parameters have none, and edges assign only variables that a merge defines.
-/

namespace WasmBackend.Ir

namespace Function

/-- The variables that blocks define, with whether a merge defines them. -/
def definitions (blocks : List Block) : List (Var × Bool) :=
  blocks.flatMap fun b => b.instrs.flatMap fun i => i.dst.map fun v => (v, i.op = .phi)

/-- The variables that edges assign. -/
def edgeTargets (blocks : List Block) : List Var :=
  blocks.flatMap fun b =>
    (b.exitCopies ++ b.aroundCopies ++ b.entryCopies
      ++ b.instrs.flatMap fun i => i.copies).map Copy.dst

/-- What keeps a function from being in single-assignment form. -/
def assignmentFaults (f : Function) : Except Failure (List Text) := do
  let blocks := (← f.walk).map Prod.snd
  let defs := definitions blocks
  let vars := defs.map Prod.fst
  let merged := (defs.filter Prod.snd).map Prod.fst
  let var (v : Var) : Text := f.name ++ ": v" ++ Text.ofNat v
  let params := (vars.filter fun v => v < f.params.length).map fun v =>
    f.name ++ ": parameter v" ++ Text.ofNat v ++ " reassigned"
  let repeated := (vars.eraseDups.filter fun v => 1 < vars.count v).map fun v =>
    var v ++ " assigned " ++ Text.ofNat (vars.count v) ++ " times"
  let edges := ((edgeTargets blocks).filter fun v => v ∉ merged).map fun v =>
    f.name ++ ": edge copy writes v" ++ Text.ofNat v ++ ", which is not a phi"
  return params ++ repeated ++ edges

end Function

/-- What is wrong with a unit that code is to be generated for, in alphabetical order. -/
def CodeUnit.faults (u : CodeUnit) : Except Failure (List Text) := do
  let invalid := if u.violationReport.isEmpty then [] else u.violationReport.splitOn 10
  let faults ← u.funcs.mapM Function.assignmentFaults
  return (invalid ++ faults.flatten).mergeSort fun a b => !b.lt a

end WasmBackend.Ir
