import WasmBackend.Flow.Graph

/-!
# Removing dead code

Pruning drops the blocks control cannot reach, the pure instructions and edge assignments whose
results nothing uses, and the basic blocks left with nothing to do.  A variable is live when it can
influence an effect: it is a branch condition, an argument of an instruction that is not pure, or
it feeds a live variable.
-/

namespace WasmBackend.DeadCode

open Ir (BlockId Block Copy Function Instr Var)

/-- How much was removed. -/
structure Removed where
  instrs : Nat := 0
  copies : Nat := 0
  blocks : Nat := 0
deriving DecidableEq, Repr, Inhabited

def Removed.add (a b : Removed) : Removed :=
  ⟨a.instrs + b.instrs, a.copies + b.copies, a.blocks + b.blocks⟩

/-- Which variables are known to be live. -/
abbrev Live := Array Bool

namespace Live

def contains (live : Live) (v : Var) : Except Failure Bool :=
  orFault live[v]?

def mark (live : Live) (v : Var) : Except Failure Live :=
  if v < live.size then .ok (live.set! v true) else .error .fault

/-- Whether any of these variables is live. -/
def any (live : Live) (vs : List Var) : Except Failure Bool :=
  vs.anyM (contains live)

/-- Whether an instruction has to stay. -/
def keeps (live : Live) (i : Instr) : Except Failure Bool :=
  if i.isPure then any live i.dst else .ok true

/-- Mark what feeds live variables on an edge. -/
def followCopies (live : Live) (cs : List Copy) : Except Failure Live :=
  cs.foldlM
    (fun live c => do if ← contains live c.dst then mark live c.src else return live)
    live

/-- Mark what an instruction uses when it has to stay. -/
def followInstr (live : Live) (i : Instr) : Except Failure Live := do
  let live ← if ← keeps live i then i.args.foldlM mark live else pure live
  followCopies live i.copies

/-- Mark what a block uses. -/
def followBlock (live : Live) (b : Block) : Except Failure Live := do
  let live ← if b.kind = .cond ∨ b.kind = .branch then mark live b.cond else pure live
  let live ← b.instrs.foldlM followInstr live
  let live ← followCopies live b.exitCopies
  let live ← followCopies live b.aroundCopies
  followCopies live b.entryCopies

/-- Mark what blocks use until nothing more is marked, at most `rounds` times. -/
def close (blocks : List Block) : Nat → Live → Except Failure Live
  | 0, live => .ok live
  | rounds + 1, live => do
    let next ← blocks.foldlM followBlock live
    if next = live then return live
    close blocks rounds next

/-- The live variables of a function. -/
def ofFunction (f : Function) : Except Failure Live := do
  let blocks ← f.walk
  close (blocks.map Prod.snd) (f.vars.size + 1) (Array.replicate f.vars.size false)

end Live

/-- The function so far and what was removed from it. -/
structure Pruning where
  function : Function
  removed : Removed := {}
deriving Inhabited

namespace Pruning

abbrev M := Stage Pruning

def count (r : Removed) : M Unit :=
  modify fun s => { s with removed := s.removed.add r }

def blockOf (id : BlockId) : M Block := do
  Stage.ofExcept ((← get).function.block id)

def setBlock (id : BlockId) (b : Block) : M Unit :=
  modify fun s => { s with function := s.function.updateBlock id fun _ => b }

/-- Drop blocks from a list and from everything below it, at most `depth` levels deep. -/
def dropBlocks (drop : BlockId → M Bool) : Nat → List BlockId → M (List BlockId)
  | 0, _ => throw .exhausted
  | depth + 1, ids =>
    ids.filterM fun id => do
      if ← drop id then
        count { blocks := 1 }
        return false
      let body ← dropBlocks drop depth (← blockOf id).body
      setBlock id { ← blockOf id with body := body }
      let otherwise ← dropBlocks drop depth (← blockOf id).otherwise
      setBlock id { ← blockOf id with otherwise := otherwise }
      return true

/-- Drop blocks from the whole tree. -/
def dropFromTree (drop : BlockId → M Bool) : M Unit := do
  let f := (← get).function
  let body ← dropBlocks drop (f.treeDepth + 1) f.body
  modify fun s => { s with function := { s.function with body := body } }

/-- The assignments to live variables. -/
def liveCopies (live : Live) (cs : List Copy) : M (List Copy) := do
  let kept ← Stage.ofExcept (cs.filterM fun c => live.contains c.dst)
  count { copies := cs.length - kept.length }
  return kept

/-- The instructions that have to stay, with the assignments they need. -/
def liveInstrs (live : Live) (is : List Instr) : M (List Instr) :=
  is.filterMapM fun i => do
    if ← Stage.ofExcept (live.keeps i) then
      return some { i with copies := ← liveCopies live i.copies }
    count { instrs := 1 }
    return none

/-- Remove from a block what nothing uses. -/
def sweepBlock (live : Live) (id : BlockId) : M Unit := do
  let b ← blockOf id
  let instrs ← liveInstrs live b.instrs
  let exits ← liveCopies live b.exitCopies
  let arounds ← liveCopies live b.aroundCopies
  let entries ← liveCopies live b.entryCopies
  setBlock id
    { b with instrs := instrs, exitCopies := exits, aroundCopies := arounds,
             entryCopies := entries }

/-- Remove what nothing uses and the blocks left empty; tells whether anything was removed. -/
def sweep : M Bool := do
  let before ← get
  let live ← Stage.ofExcept (Live.ofFunction before.function)
  let blocks ← Stage.ofExcept before.function.walk
  for (id, _) in blocks do
    sweepBlock live id
  dropFromTree fun id => return (← blockOf id).isEmpty
  return (← get).removed ≠ before.removed

/-- Sweep until nothing is left to remove, at most `rounds` times. -/
def sweepAll : Nat → M Unit
  | 0 => return
  | rounds + 1 => do
    if ← sweep then sweepAll rounds

end Pruning

/-- The number of things a block holds that can be removed. -/
def Removed.ofBlock (b : Block) : Nat :=
  b.instrs.foldl (fun n i => n + 1 + i.copies.length) 0 + b.exitCopies.length + b.aroundCopies.length
    + b.entryCopies.length + b.body.length + b.otherwise.length

/-- The number of things a function holds that can be removed. -/
def Removed.bound (f : Function) : Nat :=
  f.blocks.toList.foldl (fun n b => n + Removed.ofBlock b) f.body.length

/-- The function without dead code, and what was removed.  Unreachable blocks are dropped when the
function's graph is given. -/
def prune (f : Function) (g : Option Flow.Graph) : Except Failure (Function × Removed) := do
  let run : Pruning.M Unit := do
    if let some g := g then Pruning.dropFromTree fun id => return !g.isReachable id
    Pruning.sweepAll (Removed.bound f + 1)
  let (result, s) := run.runFrom { function := f }
  result
  return (s.function, s.removed)

end WasmBackend.DeadCode
