import WasmBackend.Failure
import WasmBackend.Program.Basic

/-!
# Walking programs

A walk meets the nodes of statement and expression trees in the order a reader does: a statement,
its target, its expression, then its nested statements; an expression, its two operands, then its
arguments.  A node can be left out together with everything below it.  A tree that contains itself
has no end; a walk over it fails after a while, with what it met up to there.
-/

namespace WasmBackend

/-- One node met on a walk. -/
inductive Visit where
  | stmt (id : StmtId) (node : Stmt)
  | expr (id : ExprId) (node : Expr)
deriving DecidableEq, Inhabited

/-- Nodes that a walk leaves out, with everything below them. -/
structure Skipped where
  stmts : List StmtId := []
  exprs : List ExprId := []

/-- A walk under way over the nodes met so far, newest first. -/
abbrev Walk := Stage (List Visit)

/-- The nodes that a walk met, in order, and how it ended. -/
structure Walked where
  visits : List Visit
  ended : Except Failure Unit
deriving Inhabited

namespace Walked

/-- What a walk met up to its end. -/
def ofWalk (w : Walk Unit) : Walked :=
  let (ended, met) := w.runFrom []
  ⟨met.reverse, ended⟩

/-- The nodes of a walk that came to its end. -/
def all (w : Walked) : Except Failure (List Visit) := do
  w.ended
  return w.visits

end Walked

namespace Program

/-- Walk over an expression tree at most `depth` deep. -/
def walkExpr (p : Program) (skipped : Skipped) : Nat → ExprId → Walk Unit
  | 0, _ => throw .exhausted
  | depth + 1, id => do
    if let some e := p.expr? id then
      modify fun met => .expr id e :: met
      if id ∉ skipped.exprs then
        (e.x :: e.y :: e.args).forM (walkExpr p skipped depth)

/-- The depth that no expression tree exceeds unless it contains itself. -/
def exprDepth (p : Program) : Nat := p.exprs.size + 2

/-- The depth that no statement tree exceeds unless it contains itself. -/
def stmtDepth (p : Program) : Nat := p.stmts.size + 2

/-- Walk over a statement tree at most `depth` deep. -/
def walkStmt (p : Program) (skipped : Skipped) : Nat → StmtId → Walk Unit
  | 0, _ => throw .exhausted
  | depth + 1, id => do
    if let some s := p.stmt? id then
      modify fun met => .stmt id s :: met
      if id ∉ skipped.stmts then
        [s.target, s.expr].forM (p.walkExpr skipped p.exprDepth)
        (s.body ++ s.otherwise).forM (walkStmt p skipped depth)

/-- The visits of an expression tree. -/
def visitExpr (p : Program) (id : ExprId) (skipped : Skipped := {}) : Walked :=
  .ofWalk (p.walkExpr skipped p.exprDepth id)

/-- The visits of statement trees in order. -/
def visitStmts (p : Program) (ids : List StmtId) (skipped : Skipped := {}) : Walked :=
  .ofWalk (ids.forM (p.walkStmt skipped p.stmtDepth))

end Program

/-- The kinds of expressions that refer to something outside the tree, by the name of the
reference. -/
def ExprKind.reference? : ExprKind → Option String
  | .global => some "Global"
  | .string => some "StringLit"
  | .funcRef => some "FuncRef"
  | .call => some "Call"
  | .callValue => some "CallValue"
  | .methodCall => some "MethodCall"
  | .member => some "Member"
  | .operator => some "Operator"
  | .construct => some "Construct"
  | .alloc => some "Alloc"
  | _ => none

/-- The lines a walk is logged by: the node, then what it refers to unless it is skipped. -/
def Visit.log (skipped : Skipped) : Visit → List Text
  | .stmt id s =>
    let line := "stmt:" ++ s.kind.name ++ " " ++ Text.ofNat id.toNat
    if s.kind = .bind ∧ id ∉ skipped.stmts then [line, "Let " ++ Text.ofNat id.toNat] else [line]
  | .expr id e =>
    let line := "expr:" ++ e.kind.name ++ " " ++ Text.ofNat id.toNat
    match e.kind.reference? with
    | some name => if id ∈ skipped.exprs then [line] else [line, name ++ " " ++ Text.ofNat id.toNat]
    | none => [line]

end WasmBackend
