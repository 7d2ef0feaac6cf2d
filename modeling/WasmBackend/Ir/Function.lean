import WasmBackend.Failure
import WasmBackend.Ir.Instr

/-!
# Block trees and functions

A function is a tree of blocks over typed variables.  Basic blocks hold instructions; structured
blocks hold lists of blocks.  Blocks live in an arena: block `n` is the `n`-th entry, counted from
1.  Assignments that merge values sit on the edges: where a basic block falls through, where an
`if` skips its body, and where a loop is entered.
-/

namespace WasmBackend.Ir

/-- The shapes of blocks; codes from 5 on name nothing. -/
inductive BlockKind where
  | basic
  /-- Runs its body when the condition is not zero. -/
  | cond
  /-- Runs its body or its other branch. -/
  | branch
  /-- Repeats its body until it is left. -/
  | loop
  /-- Runs its body once; leaving it jumps behind it. -/
  | breakable
  | unknown (code : UInt8) (outside : 5 ≤ code)
deriving DecidableEq, Repr, Inhabited

namespace BlockKind

def ofCode (c : UInt8) : BlockKind :=
  if h : 5 ≤ c then unknown c h else [basic, cond, branch, loop, breakable].getD c.toNat basic

def code : BlockKind → UInt8
  | basic => 0
  | cond => 1
  | branch => 2
  | loop => 3
  | breakable => 4
  | unknown c _ => c

def name : BlockKind → String
  | basic => "basic"
  | cond => "if"
  | branch => "ifelse"
  | loop => "loop"
  | breakable => "breakable"
  | unknown _ _ => "block?"

end BlockKind

structure Block where
  kind : BlockKind := .basic
  instrs : List Instr := []
  cond : Var := 0
  body : List BlockId := []
  otherwise : List BlockId := []
  /-- Assignments when a basic block falls through. -/
  exitCopies : List Copy := []
  /-- Assignments when an `if` skips its body. -/
  aroundCopies : List Copy := []
  /-- Assignments when a loop is entered from above. -/
  entryCopies : List Copy := []
deriving DecidableEq, Inhabited

namespace Block

def isStructured (b : Block) : Bool :=
  b.kind ≠ .basic

/-- Whether the last instruction of a basic block never falls through. -/
def isTerminated (b : Block) : Bool :=
  b.kind = .basic && (b.instrs.getLast?.map Instr.terminates).getD false

/-- Whether a basic block has nothing to do. -/
def isEmpty (b : Block) : Bool :=
  b.kind = .basic && b.instrs.isEmpty && b.exitCopies.isEmpty

end Block

/-- One lowered function.  Its first variables are the parameters. -/
structure Function where
  name : Text
  params : List Prim := []
  result : Prim := .none
  /-- The primitive of every variable. -/
  vars : Array Prim := #[]
  blocks : Array Block := #[]
  body : List BlockId := []
  /-- The export name, or nothing. -/
  exportName : Text := ""
  inlined : Bool := false
  inTable : Bool := false
deriving DecidableEq, Inhabited

namespace Function

def signature (f : Function) : Signature :=
  ⟨f.params, f.result⟩

def block? (f : Function) (id : BlockId) : Option Block :=
  if id = 0 then none else f.blocks[id - 1]?

/-- A block that has to exist. -/
def block (f : Function) (id : BlockId) : Except Failure Block :=
  match f.block? id with
  | some b => .ok b
  | none => .error (.internal (f.name ++ ": block " ++ Text.ofNat id ++ " does not exist"))

/-- The primitive of a variable that has to exist. -/
def varPrim (f : Function) (v : Var) : Except Failure Prim :=
  match f.vars[v]? with
  | some p => .ok p
  | none =>
    .error (.internal (f.name ++ ": variable v" ++ Text.ofNat v ++ " was never allocated"))

/-- Change a block. -/
def updateBlock (f : Function) (id : BlockId) (g : Block → Block) : Function :=
  if id = 0 then f else { f with blocks := f.blocks.modify (id - 1) g }

/-- The depth that no block tree exceeds unless it contains itself. -/
def treeDepth (f : Function) : Nat :=
  f.blocks.size + 1

/-- The blocks of trees at most `depth` deep, in tree order. -/
def walkFrom (f : Function) : Nat → List BlockId → Except Failure (List (BlockId × Block))
  | 0, _ => .error .exhausted
  | depth + 1, ids => do
    let parts ← ids.mapM fun id => do
      let b ← f.block id
      let inner ← walkFrom f depth b.body
      let other ← walkFrom f depth b.otherwise
      return (id, b) :: inner ++ other
    return parts.flatten

/-- The blocks of the function in tree order. -/
def walk (f : Function) : Except Failure (List (BlockId × Block)) :=
  f.walkFrom (f.treeDepth + 1) f.body

end Function

end WasmBackend.Ir
