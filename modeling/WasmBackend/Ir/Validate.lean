import WasmBackend.Ir.CodeUnit

/-!
# Valid block trees

A function is valid when its blocks form a tree, every variable it mentions exists, and every
branch names an enclosing construct it can leave or repeat.  `Function.violations` lists what is
wrong, in tree order.
-/

namespace WasmBackend.Ir

/-- What is wrong with a function. -/
inductive Violation where
  | unknownVariable (block : BlockId) (v : Var)
  | missingBlock (id : BlockId)
  | repeatedBlock (id : BlockId)
  | nestedInBasic (block : BlockId)
  | unknownKind (block : BlockId) (code : UInt8)
  /-- A jump back to something that is no loop. -/
  | nextOutsideLoop (block target : BlockId)
  /-- A branch to a block that cannot be left. -/
  | wrongTarget (block : BlockId) (op : Opcode) (kind : BlockKind) (target : BlockId)
  /-- A branch to something that does not enclose it. -/
  | notEnclosing (block : BlockId) (op : Opcode) (target : BlockId)
deriving DecidableEq, Repr

def Violation.message : Violation → Text
  | unknownVariable b v => "b" ++ Text.ofNat b ++ ": unknown variable v" ++ Text.ofNat v
  | missingBlock id => "reference to missing block " ++ Text.ofNat id
  | repeatedBlock id => "block b" ++ Text.ofNat id ++ " appears twice in the tree"
  | nestedInBasic b => "b" ++ Text.ofNat b ++ ": basic block with nested blocks"
  | unknownKind b c => "b" ++ Text.ofNat b ++ ": unknown block kind " ++ Text.ofNat c.toNat
  | nextOutsideLoop b t =>
    "b" ++ Text.ofNat b ++ ": continue targets non-loop b" ++ Text.ofNat t
  | wrongTarget b op kind t =>
    "b" ++ Text.ofNat b ++ ": " ++ op.name ++ " targets " ++ kind.name ++ " block b"
      ++ Text.ofNat t
  | notEnclosing b op t =>
    "b" ++ Text.ofNat b ++ ": " ++ op.name ++ " targets b" ++ Text.ofNat t
      ++ " which does not enclose it"

/-- The blocks met so far and what is wrong with them. -/
structure Findings where
  seen : List BlockId := []
  violations : List Violation := []

namespace Function

/-- The variables of a list that do not exist. -/
def unknownVars (f : Function) (b : BlockId) (vs : List Var) : List Violation :=
  (vs.filter fun v => decide (f.vars.size ≤ v)).map (Violation.unknownVariable b)

/-- The variables of copies that do not exist. -/
def unknownCopyVars (f : Function) (b : BlockId) (cs : List Copy) : List Violation :=
  f.unknownVars b (cs.flatMap fun c => [c.dst, c.src])

/-- What is wrong with a branch; `scope` lists the enclosing blocks, innermost first. -/
def branchViolations (b : BlockId) (scope : List (BlockId × BlockKind)) (i : Instr) :
    List Violation :=
  match scope.find? fun s => s.1 = i.target with
  | none => [.notEnclosing b i.op i.target]
  | some (target, kind) =>
    (if i.op = .next ∧ kind ≠ .loop then [.nextOutsideLoop b target] else [])
      ++ (if kind ≠ .loop ∧ kind ≠ .breakable then [.wrongTarget b i.op kind target] else [])

/-- What is wrong with an instruction. -/
def instrViolations (f : Function) (b : BlockId) (scope : List (BlockId × BlockKind)) (i : Instr) :
    List Violation :=
  f.unknownVars b i.dst ++ f.unknownVars b i.args ++ f.unknownCopyVars b i.copies
    ++ (if i.isBranch then branchViolations b scope i else [])

/-- Check blocks inside a scope, at most `depth` levels deep; a block is checked where it is met
first. -/
def checkBlocks (f : Function) :
    Nat → List (BlockId × BlockKind) → Findings → List BlockId → Findings
  | 0, _, r, _ => r
  | depth + 1, scope, r, ids =>
    ids.foldl
      (fun r id =>
        match f.block? id with
        | none => { r with violations := r.violations ++ [.missingBlock id] }
        | some b =>
          if id ∈ r.seen then { r with violations := r.violations ++ [.repeatedBlock id] }
          else
            let r := { r with seen := id :: r.seen }
            match b.kind with
            | .basic =>
              { r with
                violations := r.violations
                  ++ (if b.body ≠ [] ∨ b.otherwise ≠ [] then [.nestedInBasic id] else [])
                  ++ b.instrs.flatMap (f.instrViolations id scope)
                  ++ f.unknownCopyVars id b.exitCopies }
            | .cond | .branch =>
              let r :=
                { r with
                  violations := r.violations ++ f.unknownVars id [b.cond]
                    ++ f.unknownCopyVars id b.aroundCopies }
              let scope := (id, b.kind) :: scope
              checkBlocks f depth scope (checkBlocks f depth scope r b.body) b.otherwise
            | .loop | .breakable =>
              let r :=
                { r with violations := r.violations ++ f.unknownCopyVars id b.entryCopies }
              checkBlocks f depth ((id, b.kind) :: scope) r b.body
            | .unknown c _ => { r with violations := r.violations ++ [.unknownKind id c] })
      r

/-- Everything wrong with a function. -/
def violations (f : Function) : List Violation :=
  (f.checkBlocks (f.treeDepth + 1) [] {} f.body).violations

/-- Whether nothing is wrong. -/
def isValid (f : Function) : Bool :=
  f.violations.isEmpty

end Function

/-- What is wrong with a unit: per function a heading and one line for each violation. -/
def CodeUnit.violationReport (u : CodeUnit) : Text :=
  Text.join "\n" <| u.funcs.filterMap fun f =>
    if f.isValid then none
    else
      some ("function " ++ f.name ++ ": " ++ Text.join "\n" (f.violations.map Violation.message))

end WasmBackend.Ir
