import WasmBackend.SingleAssignment.Renaming

/-!
# Conversion to single assignment

With the names found, a function gets variables with one definition each: uses and
definitions take their names, a merge becomes an instruction at the head of its block, and the
assignments that feed it are placed on the edges into that block.  Assignments on one edge happen
at once.
-/

namespace WasmBackend.SingleAssignment

open Ir (BlockId Block Copy Function Instr Var)
open WasmBackend.Flow (Graph Edge)

/-- The state of the conversion: the function so far and what is known about its names. -/
structure Conversion where
  function : Function
  names : Renaming
deriving Inhabited

namespace Conversion

abbrev M := Stage Conversion

def onNames {α : Type} (x : Renaming.M α) : M α :=
  Stage.zoom Conversion.names (fun n s => { s with names := n }) x

def updateBlock (id : BlockId) (g : Block → Block) : M Unit :=
  modify fun s => { s with function := s.function.updateBlock id g }

/-- The merges of a block ordered by variable. -/
def mergesOf (s : Conversion) (id : BlockId) : List (Var × Var) :=
  (s.names.block id).merges.mergeSort fun a b => a.1 ≤ b.1

/-- The names of a variable that arrive over the edges into a block, each once. -/
def sources (g : Graph) (s : Conversion) (id : BlockId) (v : Var) : List Var :=
  ((g.preds id).filterMap fun e => (s.names.along e).bind fun n => Names.get? n v).eraseDups

/-- The instructions that stand for the merges of a block. -/
def mergeInstrs (g : Graph) (s : Conversion) (id : BlockId) : List Instr :=
  (s.mergesOf id).map fun (v, merge) =>
    { op := .phi, dst := [merge], args := sources g s id v }

/-- Rename instructions, given the names before the first and those each defines. -/
def renameInstrs (names : Names) : List (Instr × List Var) → List Instr
  | [] => []
  | (i, defs) :: rest =>
    { i with args := i.args.map (Names.rename names), dst := defs }
      :: renameInstrs (Renaming.define names i defs) rest

/-- Give the variables of one block their new names. -/
def renameBlock (g : Graph) (id : BlockId) : M Unit := do
  let b ← Stage.ofExcept ((← get).function.block id)
  let names ← onNames (Renaming.headNames (← get).function g id)
  match b.kind with
  | .basic =>
    let defs ← onNames (Renaming.defNames (← get).function id b)
    let merges := mergeInstrs g (← get) id
    updateBlock id fun b => { b with instrs := merges ++ renameInstrs names (b.instrs.zip defs) }
  | .cond | .branch => updateBlock id fun b => { b with cond := Names.rename names b.cond }
  | .loop | .breakable | .unknown _ _ => return

/-- The assignments an edge makes for the merges of its destination. -/
def edgeCopies (s : Conversion) (e : Edge) (merges : List (Var × Var)) : List Copy :=
  merges.filterMap fun (v, merge) =>
    match (s.names.along e).bind fun n => Names.get? n v with
    | some name => if name = merge then none else some ⟨merge, name⟩
    | none => none

/-- The number of merge instructions at the head of a block. -/
def mergeCount (s : Conversion) (b : BlockId) : Nat :=
  match (s.function.block? b).map Block.kind with
  | some .basic => (s.names.block b).merges.length
  | _ => 0

/-- Store assignments where an edge leaves its source. -/
def placeCopies (e : Edge) (copies : List Copy) : M Unit := do
  let s ← get
  let source ← Stage.ofExcept (s.function.block e.src)
  match e.site with
  | .fallthrough =>
    updateBlock e.src fun b => { b with exitCopies := b.exitCopies ++ copies }
  | .branch =>
    let position := e.instr + s.mergeCount e.src
    updateBlock e.src fun b =>
      { b with
        instrs := b.instrs.modify position fun i => { i with copies := i.copies ++ copies } }
  | .around =>
    updateBlock e.src fun b => { b with aroundCopies := b.aroundCopies ++ copies }
  | .enter =>
    if source.kind ≠ .loop then
      Stage.internal (s.function.name ++ ": join at the head of " ++ source.kind.name
        ++ " block " ++ Text.ofNat e.src)
    updateBlock e.src fun b => { b with entryCopies := b.entryCopies ++ copies }

/-- Place the assignments that feed the merges of a block. -/
def feedMerges (g : Graph) (id : BlockId) : M Unit := do
  let merges := (← get).mergesOf id
  for e in g.preds id do
    let copies := (← get).edgeCopies e merges
    if !copies.isEmpty then placeCopies e copies

/-- Rename in all reachable blocks, then place the assignments on their edges. -/
def renameAll (g : Graph) : M Unit := do
  g.order.forM (renameBlock g)
  g.order.forM (feedMerges g)

end Conversion

/-- A function in which every variable has one definition, with its control-flow graph. -/
def convert (f : Function) : Except Failure (Function × Graph) := do
  let g ← Graph.ofFunction f
  if f.body.isEmpty then return (f, g)
  let (settled, names) :=
    (Renaming.settle f g Renaming.roundLimit).runFrom (Renaming.ofFunction f)
  settled
  let (result, s) := (Conversion.renameAll g).runFrom { function := f, names := names }
  result
  return ({ s.function with vars := s.names.vars }, g)

end WasmBackend.SingleAssignment
