import WasmBackend.Flow.Graph

/-!
# Finding names for single assignment

Every definition of a variable gets a name of its own, and where different names of one variable
meet, a merge gets one.  Which name reaches which block is found by going over the reachable
blocks, in rounds, until no block passes on different names than before.  Names are new variables
of the function, so the first definition to be met takes the first free number.
-/

namespace WasmBackend.SingleAssignment

open Ir (BlockId Block Function Var)
open WasmBackend.Flow (Graph Edge)

/-- The name that stands for each variable at a point of a function.  The array ends with the last
variable that has one. -/
abbrev Names := Array (Option Var)

namespace Names

/-- The name of a variable. -/
def get? (n : Names) (v : Var) : Option Var :=
  (n[v]?).join

/-- Give a variable a name. -/
def set (n : Names) (v name : Var) : Names :=
  if v < n.size then n.set! v (some name)
  else (n ++ Array.replicate (v - n.size) none).push (some name)

/-- The name of a variable, or the variable itself when it has none. -/
def rename (n : Names) (v : Var) : Var :=
  (get? n v).getD v

end Names

/-- What is known about one block. -/
structure BlockNames where
  /-- The names its instructions define, once they are given. -/
  defs : Option (List (List Var)) := none
  /-- The variables merged at its head, with the names of the merges. -/
  merges : List (Var × Var) := []
  /-- The names at its end. -/
  out : Option Names := none
  /-- The names at its branch instructions, by position. -/
  branches : List (Nat × Names) := []
deriving Inhabited

/-- What is known about a function: the primitives of its variables and names, and its blocks by
number. -/
structure Renaming where
  vars : Array Prim
  blocks : Array BlockNames
deriving Inhabited

namespace Renaming

abbrev M := Stage Renaming

/-- Nothing is known about the blocks. -/
def ofFunction (f : Function) : Renaming :=
  { vars := f.vars, blocks := Array.replicate (f.blocks.size + 1) {} }

/-- What is known about a block. -/
def block (r : Renaming) (b : BlockId) : BlockNames :=
  r.blocks.getD b {}

def update (b : BlockId) (g : BlockNames → BlockNames) : M Unit :=
  modify fun r => { r with blocks := r.blocks.modify b g }

/-- A new name for a variable. -/
def fresh (f : Function) (v : Var) : M Var := do
  let r ← get
  let prim ← Stage.ofExcept ({ f with vars := r.vars }.varPrim v)
  set { r with vars := r.vars.push prim }
  return r.vars.size

/-- The names that go along an edge, unless its source has not been looked at. -/
def along (r : Renaming) (e : Edge) : Option Names :=
  match e.site with
  | .branch => (r.block e.src).branches.lookup e.instr
  | _ => (r.block e.src).out

/-- The names at the start of a function: parameters are called what they are. -/
def paramNames (f : Function) : Names :=
  (Array.range f.params.length).map some

/-- The names that arrive at a block over the different ways into it. -/
def incoming (f : Function) (g : Graph) (r : Renaming) (b : BlockId) : List Names :=
  (if b = g.entry then [paramNames f] else []) ++ (g.preds b).filterMap r.along

/-- The name of a variable at the head of a block where these names of it arrive.  A single name
is passed on; different names are merged, and a merge once made stays. -/
def headName (f : Function) (b : BlockId) (v : Var) (names : List Var) : M (Option Var) := do
  match ((← get).block b).merges.lookup v, names with
  | _, [] => return none
  | some merge, _ => return some merge
  | none, name :: rest =>
    if rest.all (· = name) then return some name
    let merge ← fresh f v
    update b fun k => { k with merges := k.merges ++ [(v, merge)] }
    return some merge

/-- The names at the head of a block. -/
def headNames (f : Function) (g : Graph) (b : BlockId) : M Names := do
  let incoming := (← get).incoming f g b
  (List.range ((incoming.map Array.size).foldl max 0)).foldlM
    (fun names v => do
      match ← headName f b v (incoming.filterMap fun n => Names.get? n v) with
      | some name => return Names.set names v name
      | none => return names)
    #[]

/-- The names the instructions of a block define, given on the first look. -/
def defNames (f : Function) (id : BlockId) (b : Block) : M (List (List Var)) := do
  match ((← get).block id).defs with
  | some defs => return defs
  | none =>
    let defs ← b.instrs.mapM fun i => i.dst.mapM (fresh f)
    update id fun k => { k with defs := some defs }
    return defs

/-- The names behind an instruction with these definitions. -/
def define (names : Names) (i : Ir.Instr) (defs : List Var) : Names :=
  (i.dst.zip defs).foldl (fun n (v, name) => Names.set n v name) names

/-- The names at the end of instructions, and those at each branch among them, which are counted
from `n` on. -/
def through (names : Names) : Nat → List (Ir.Instr × List Var) → Names × List (Nat × Names)
  | _, [] => (names, [])
  | n, (i, defs) :: rest =>
    let names := define names i defs
    let (out, branches) := through names (n + 1) rest
    (out, if i.isBranch then (n, names) :: branches else branches)

/-- Look at a block once: the names at its end, after those at its branches are recorded. -/
def transfer (f : Function) (id : BlockId) (b : Block) (names : Names) : M Names := do
  if b.kind ≠ .basic then return names
  let defs ← defNames f id b
  let (out, branches) := through names 0 (b.instrs.zip defs)
  update id fun k => { k with branches := branches }
  return out

/-- Look at a block once; tells whether it passes on different names than before. -/
def visit (f : Function) (g : Graph) (id : BlockId) : M Bool := do
  let b ← Stage.ofExcept (f.block id)
  let out ← transfer f id b (← headNames f g id)
  if ((← get).block id).out = some out then return false
  update id fun k => { k with out := some out }
  return true

/-- Look at every reachable block once; tells whether any passes on different names. -/
def round (f : Function) (g : Graph) : M Bool :=
  g.order.foldlM (fun changed id => return (← visit f g id) || changed) false

/-- Rounds until one changes nothing; a function that needs more than `limit` is given up. -/
def settle (f : Function) (g : Graph) : Nat → M Unit
  | 0 => Stage.internal (f.name ++ ": renaming did not converge")
  | limit + 1 => do
    if ← round f g then settle f g limit

/-- How many rounds a function may take. -/
def roundLimit : Nat := 4096

end Renaming

end WasmBackend.SingleAssignment
