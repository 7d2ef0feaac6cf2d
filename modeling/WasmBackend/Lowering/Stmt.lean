import WasmBackend.Lowering.Expr

/-!
# Lowering statements

Statements emit into the current basic block and open new blocks for control flow.  A list of
blocks starts with a basic block, and a basic block follows every structured one.
-/

namespace WasmBackend.Lowering

open Ir (Var)

/-- Return a row of variables: the first natively, the others through scratch memory. -/
def lowerReturn (vars : List Var) : M Unit := do
  match vars with
  | [] => emit { op := .ret }
  | v :: rest =>
    for (w, k) in rest.zipIdx do
      let p ← primOf w
      let slot ← scratchSlot (k + 1) p
      let base ← address .scratch slot
      emit { op := .store, args := [base, w], storage := p }
    emit { op := .ret, args := [v] }

/-- The place an assignment writes to, for targets at most `depth` members deep. -/
def targetWithin : Nat → ExprId → M Value
  | 0, _ => throw (.other .exhausted)
  | depth + 1, id => do
    let e ← expect ((← program).expr? id)
    let h ← resolve e.type
    match e.kind with
    | .loc => return .direct h (← localVars e.loc)
    | .self => do
      let frame ← read
      return .direct frame.selfType frame.self
    | .global => return .global h (← globalIndex e.decl) 0
    | .deref => return .relative h (← first (← rvalue lowerExpr e.x)) 0
    | .member => do
      let owner ← exprType e.x
      if (← typeOf owner).kind = .cls then
        selectMember (← lowerExpr e.x none) e.name
      else
        selectMember (← targetWithin depth e.x) e.name
    | _ => internalHere (e.kind.name ++ " is not assignable")

/-- The place an assignment writes to. -/
def assignTarget (id : ExprId) : M Value := do
  targetWithin ((← program).exprs.size + 1) id

/-- The locals of the function. -/
def frameLocals : M (List Local) := do
  match (← read).function with
  | some f => return f.locals
  | none => return (← program).mainLocals

/-- Set every slot of a row to zero. -/
def clear (vars : List Var) : M Unit := do
  for v in vars do
    constInto v (← primOf v) 0

/-- Give a local its first value. -/
def lowerBind (s : Stmt) : M Unit := do
  let l ← expect (← frameLocals)[s.loc.toNat]?
  let h ← resolve l.type
  let vars ← localVars s.loc
  if s.expr = 0 then clear vars
  else discard (lowerExpr s.expr (some (.direct h vars)))

/-- An assignment.  An aggregate is built apart first, since its parts may read the target. -/
def lowerAssign (s : Stmt) : M Unit := do
  let target ← assignTarget s.target
  let value := (← program).expr? s.expr
  if value.map Expr.kind = some .construct then
    writeValue target (← readValue (← lowerExpr s.expr none))
  else
    discard (lowerExpr s.expr (some target))

/-- A conditional; `sub` lowers its branches. -/
def lowerCond (sub : List StmtId → M Unit) (s : Stmt) : M Unit := do
  let cond ← first (← rvalue lowerExpr s.expr)
  if s.otherwise.isEmpty then
    let block ← newBlock .cond
    let body ← nested (sub s.body)
    updateBlock block fun b => { b with cond := cond, body := body }
  else
    let block ← newBlock .branch
    let body ← nested (sub s.body)
    let other ← nested (sub s.otherwise)
    updateBlock block fun b => { b with cond := cond, body := body, otherwise := other }
  openBasic

/-- A loop; `sub` lowers its body. -/
def lowerLoop (sub : List StmtId → M Unit) (s : Stmt) : M Unit := do
  let block ← newBlock .loop
  modify fun st => { st with loops := block :: st.loops }
  let body ← nested do
    let cond ← first (← rvalue lowerExpr s.expr)
    let leave ← newVar .bool
    let p ← primOf cond
    emit { op := .eqz, dst := [leave], args := [cond], storage := p }
    emit { op := .exitIf, args := [leave], target := block }
    openBasic
    sub s.body
  updateBlock block fun b => { b with body := body }
  modify fun st => { st with loops := st.loops.tail }
  openBasic

/-- A jump to the end or the head of the innermost loop. -/
def lowerJump (op : Ir.Opcode) (s : Stmt) : M Unit := do
  match (← get).loops with
  | [] => internalHere (s.kind.name ++ " outside a loop")
  | target :: _ =>
    emit { op := op, target := target }
    openBasic

/-- Lower an existing statement; `sub` lowers nested lists. -/
def stmtStep (sub : List StmtId → M Unit) (s : Stmt) : M Unit := do
  match s.kind with
  | .expr => discard (lowerExpr s.expr none)
  | .bind => lowerBind s
  | .assign => lowerAssign s
  | .cond => lowerCond sub s
  | .loop => lowerLoop sub s
  | .exit => lowerJump .exit s
  | .next => lowerJump .next s
  | .ret => do
    let frame ← read
    if frame.function.map FunctionData.kind = some .constructor then lowerReturn frame.self
    else if s.expr = 0 then lowerReturn []
    else lowerReturn (← rvalue lowerExpr s.expr)
    openBasic
  | .unknown _ _ => pure ()

/-- Lower statement trees at most `depth` deep. -/
def stmtsWithin : Nat → List StmtId → M Unit
  | 0, _ => throw (.other .exhausted)
  | depth + 1, ids => do
    for id in ids do
      match (← program).stmt? id with
      | none => internalHere ("missing statement " ++ Text.ofNat id.toNat)
      | some s => stmtStep (stmtsWithin depth) s

/-- Lower a list of statements. -/
def lowerStmts (ids : List StmtId) : M Unit := do
  stmtsWithin ((← program).stmts.size + 1) ids

end WasmBackend.Lowering
