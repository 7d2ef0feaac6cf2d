import WasmBackend.Ir.Function

/-!
# Control flow between blocks

A function is a tree of blocks; its graph says from which block control can go directly to which.
Every edge remembers where it leaves its source, because that is where the assignments that belong
to it are stored.  `Graph.ofFunction` wires a tree; edges are kept in the order the tree is walked
in, and `preds` and `succs` are two views of that one list.
-/

namespace WasmBackend.Flow

open Ir (BlockId Block Function)

/-- Where an edge leaves its source. -/
inductive Site where
  /-- At the end of a basic block. -/
  | fallthrough
  /-- Through a branch instruction. -/
  | branch
  /-- Around the body of an `if`. -/
  | around
  /-- Into the body of a structured block. -/
  | enter
deriving DecidableEq, Repr, Inhabited

namespace Site

def name : Site → String
  | fallthrough => "fallthrough"
  | branch => "branch"
  | around => "around"
  | enter => "enter"

/-- The site with a number. -/
def ofCode? (c : Nat) : Option Site :=
  [fallthrough, branch, around, enter][c]?

end Site

/-- One possible transfer of control. -/
structure Edge where
  src : BlockId
  dst : BlockId
  site : Site
  /-- The position of the branch instruction an edge leaves through. -/
  instr : Nat := 0
deriving DecidableEq, Repr, Inhabited

def Edge.render (e : Edge) : Text :=
  Text.ofNat e.src ++ "->" ++ Text.ofNat e.dst ++ " " ++ e.site.name ++ " " ++ Text.ofNat e.instr

/-- The control-flow graph of a function. -/
structure Graph where
  edges : List Edge := []
  /-- The block control starts in; 0 for a function without blocks. -/
  entry : BlockId := 0
  /-- The blocks control can reach, breadth first from the entry. -/
  order : List BlockId := []
deriving Inhabited

namespace Graph

/-- The edges into a block. -/
def preds (g : Graph) (b : BlockId) : List Edge :=
  g.edges.filter fun e => e.dst = b

/-- The edges out of a block. -/
def succs (g : Graph) (b : BlockId) : List Edge :=
  g.edges.filter fun e => e.src = b

/-- Whether control can reach a block. -/
def isReachable (g : Graph) (b : BlockId) : Bool :=
  b ∈ g.order

end Graph

/-- What is known while a tree is wired. -/
structure Wiring where
  /-- The edges found so far, newest first. -/
  edges : List Edge := []
  /-- The block behind every loop and breakable met. -/
  exits : List (BlockId × BlockId) := []
  /-- The first block inside every loop met. -/
  heads : List (BlockId × BlockId) := []

namespace Wiring

abbrev M := Stage Wiring

/-- Add an edge; control that goes to no block leaves the function. -/
def connect (f : Function) (e : Edge) : M Unit := do
  if e.dst = 0 then return
  if f.blocks.size < e.dst then throw .fault
  modify fun w => { w with edges := e :: w.edges }

/-- The block a branch goes to, 0 when its target is no construct met before. -/
def destination (w : Wiring) (i : Ir.Instr) : BlockId :=
  let targets := if i.op = .next then w.heads else w.exits
  (targets.lookup i.target).getD 0

/-- Wire the instructions of a basic block from position `n` on. -/
def wireInstrs (f : Function) (id next : BlockId) : Nat → List Ir.Instr → M Unit
  | _, [] => connect f { src := id, dst := next, site := .fallthrough }
  | n, i :: rest => do
    if i.isBranch then
      connect f { src := id, dst := (← get).destination i, site := .branch, instr := n }
    if i.terminates then return
    wireInstrs f id next (n + 1) rest

/-- Wire one block; `wire` wires the blocks inside it, given where they fall to. -/
def wireBlock (f : Function) (wire : List BlockId → BlockId → M Unit) (id : BlockId) (b : Block)
    (next : BlockId) : M Unit := do
  match b.kind with
  | .basic => wireInstrs f id next 0 b.instrs
  | .cond =>
    if let some first := b.body.head? then connect f { src := id, dst := first, site := .enter }
    connect f { src := id, dst := next, site := .around }
    wire b.body next
  | .branch =>
    connect f { src := id, dst := b.body.headD next, site := .enter }
    connect f { src := id, dst := b.otherwise.headD next, site := .enter }
    wire b.body next
    wire b.otherwise next
  | .loop =>
    let head := b.body.headD id
    modify fun w =>
      { w with exits := (id, next) :: w.exits, heads := (id, head) :: w.heads }
    connect f { src := id, dst := head, site := .enter }
    wire b.body head
  | .breakable =>
    modify fun w => { w with exits := (id, next) :: w.exits }
    connect f { src := id, dst := b.body.headD next, site := .enter }
    wire b.body next
  | .unknown _ _ => return

/-- Wire a list of blocks at most `depth` levels deep; control behind the last goes to `fall`. -/
def wireBlocks (f : Function) : Nat → List BlockId → BlockId → M Unit
  | 0, _, _ => throw .exhausted
  | depth + 1, ids, fall =>
    (ids.zip (ids.tail ++ [fall])).forM fun (id, next) => do
      wireBlock f (wireBlocks f depth) id (← Stage.ofExcept (f.block id)) next

end Wiring

namespace Graph

/-- Add a block to those found, unless it is there. -/
def discover (found : List BlockId) (b : BlockId) : List BlockId :=
  if b ∈ found then found else found ++ [b]

/-- Add the successors of the blocks found, from position `i` on, at most `fuel` of them. -/
def breadthFirst (g : Graph) : Nat → Nat → List BlockId → List BlockId
  | 0, _, found => found
  | fuel + 1, i, found =>
    match found[i]? with
    | none => found
    | some b => breadthFirst g fuel (i + 1) (((g.succs b).map Edge.dst).foldl discover found)

/-- The control-flow graph of a function. -/
def ofFunction (f : Function) : Except Failure Graph := do
  let (result, w) := (Wiring.wireBlocks f (f.treeDepth + 1) f.body 0).runFrom {}
  result
  let g : Graph := { edges := w.edges.reverse }
  match f.body.head? with
  | none => return g
  | some entry =>
    return { g with entry := entry, order := g.breadthFirst (g.edges.length + 2) 0 [entry] }

end Graph

end WasmBackend.Flow
