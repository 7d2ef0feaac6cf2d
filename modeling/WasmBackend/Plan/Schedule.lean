import WasmBackend.Prim
import WasmBackend.Layout
import WasmBackend.Plan.Task
import WasmBackend.Program.Visit
import WasmBackend.Text.Printable
import WasmBackend.Trace.Event

/-!
# Finding out what to compile

Scheduling starts from the entry, the exported functions and the functions to be compiled in any
case, and follows every reference from there: calls, function values, member functions,
constructors and the types of everything met.  Each task is found once; the newest is looked at
first.  Wrong decorators and export names are reported on the way.
-/

namespace WasmBackend

/-- The state of scheduling. -/
structure Scheduler where
  layouts : Layouts
  bag : Bag := {}
  tracer : Trace.Tracer := {}
  /-- The tasks in discovery order. -/
  tasks : Array Task := #[]
  /-- The positions of tasks still to be looked at, newest first. -/
  work : List Nat := []
  /-- The types already followed. -/
  required : List Handle := []
  exports : List (Text × DeclId) := []
  /-- The functions with a wrong decorator. -/
  badDecls : List DeclId := []
  needsAlloc : Bool := false
deriving Inhabited

namespace Scheduler

abbrev M := Stage Scheduler

def program (s : Scheduler) : Program := s.layouts.store.program

def onLayouts {α : Type} (x : Layouts.M α) : M α :=
  Stage.zoom Scheduler.layouts (fun l s => { s with layouts := l }) x

def onStore {α : Type} (x : TypeStore.M α) : M α :=
  onLayouts (Layouts.onStore x)

def report (d : Diagnostic) : M Unit :=
  modify fun s => { s with bag := s.bag.add d }

/-- Report a function's decorator and leave the function out. -/
def rejectDecl (id : DeclId) (code : Code) (span : Span) (message : Text) : M Unit := do
  modify fun s => { s with badDecls := id :: s.badDecls }
  report (.error code span message)

/-- The symbol of a task. -/
def taskName (t : Task) : TypeStore.M Text :=
  match t.kind with
  | .entry => pure entryFunction
  | .layout => TypeStore.nameOf t.owner
  | .function => TypeStore.functionName t.decl t.args
  | .method | .operator | .constructor => TypeStore.memberName t.owner t.decl

/-- Add a task unless it is there; a task that is there may become indirect. -/
def push (t : Task) : M Unit := do
  match (← get).tasks.findIdx? fun u => u.identity = t.identity with
  | some i =>
    modify fun s =>
      { s with tasks := s.tasks.modify i fun u => { u with indirect := u.indirect || t.indirect } }
  | none =>
    let name ← onStore (taskName t)
    modify fun s =>
      { s with tasks := s.tasks.push { t with name := name }, work := s.tasks.size :: s.work }

/-- See to it that every aggregate reachable through a type is laid out, following at most
`depth` levels of pointers and function types. -/
def requireWithin : Nat → Handle → M Unit
  | 0, _ => throw .exhausted
  | depth + 1, h => do
    if h = 0 ∨ h ∈ (← get).required then return
    modify fun s => { s with required := h :: s.required }
    let kind ← Stage.ofExcept ((← get).layouts.store.kindOf h)
    match kind with
    | .struct | .cls => push { kind := .layout, owner := h }
    | .pointer => do
      let t ← onStore (TypeStore.getType h)
      requireWithin depth t.elem
    | .function => do
      let t ← onStore (TypeStore.getType h)
      for p in t.params ++ [t.result] do
        requireWithin depth p
    | .void | .primitive | .unknown _ _ => pure ()

/-- See to it that every aggregate reachable through a type is laid out. -/
def require (h : Handle) : M Unit := do
  requireWithin ((← get).layouts.store.size + 1) h

/-- Follow the type of a type expression. -/
def requireType (scope : List Handle) (t : TypeId) : M Unit := do
  require (← onStore (TypeStore.resolve t scope))

/-- Check a foreign function: it has a symbol in place of a body. -/
def checkForeign (id : DeclId) (d : Decl) (f : FunctionData) : M Unit :=
  if f.hasBody then
    rejectDecl id .foreignBody d.span ("foreign function " ++ d.name ++ " must not have a body")
  else if d.foreignSymbol = "" then
    rejectDecl id .badNative d.span "foreign function needs a symbol"
  else pure ()

/-- Check a native function: it names an intrinsic in place of a body. -/
def checkNative (id : DeclId) (d : Decl) (f : FunctionData) : M Unit :=
  if f.hasBody then
    rejectDecl id .nativeBody d.span ("native function " ++ d.name ++ " must not have a body")
  else if !isIntrinsic d.nativeName then
    rejectDecl id .badNative d.span ("unknown native intrinsic " ++ d.nativeName.quoted)
  else pure ()

/-- Check the decorators of a function. -/
def checkDecl (id : DeclId) (d : Decl) : M Unit := do
  if d.kind ≠ .function then return
  if d.has .foreign then checkForeign id d (← Stage.some! d.function)
  if d.has .native then checkNative id d (← Stage.some! d.function)

/-- Whether a name may be exported: visible characters only, and at least one. -/
def validExportName (name : Text) : Bool :=
  name ≠ "" && name.pieces.all fun p => !Text.isBlank p.code && Text.isPrintable p.code

/-- Take an export name for a function, or report why it cannot be taken. -/
def claimExport (entryExport : Text) (id : DeclId) (d : Decl) : M Unit := do
  let name := d.exportName
  if !validExportName name ∨ name = "memory" ∨ name = entryExport then
    report (.error .badExportName d.span ("invalid export name " ++ name.quoted))
  else
    match (← get).exports.lookup name with
    | some prev =>
      let first ← Stage.some! ((← get).program.decl? prev)
      report (.error .duplicateExport d.span ("export name " ++ name.quoted ++ " is already used")
        [⟨first.span, "first exported here"⟩])
    | none => modify fun s => { s with exports := s.exports ++ [(name, id)] }

/-- Start from a function that is exported or compiled in any case. -/
def seedDecl (entryExport : Text) (id : DeclId) (d : Decl) : M Unit := do
  if d.kind ≠ .function then return
  let f ← Stage.some! d.function
  if f.kind ≠ .plain then return
  if !d.has .exported ∧ !d.has .compiled ∧ id ∉ (← get).program.roots then return
  if d.isGeneric then
    report (.error .exportGeneric d.span
      ("generic function " ++ d.name
        ++ " cannot be exported or compiled without type arguments")
      [⟨d.span, "call it from a non-generic wrapper instead"⟩])
    return
  if id ∈ (← get).badDecls ∨ d.has .native then return
  if d.has .exported then claimExport entryExport id d
  push { kind := .function, decl := id }

/-- The function a call or function value refers to. -/
def calledDecl (what : Text) (id : DeclId) : M Decl := do
  match (← get).program.decl? id with
  | some d =>
    if d.kind = .function then return d
    Stage.internal (what ++ " to missing function " ++ Text.ofNat id.toNat)
  | none => Stage.internal (what ++ " to missing function " ++ Text.ofNat id.toNat)

/-- The aggregate that a member-like expression works on. -/
def receiver (scope : List Handle) (x : ExprId) (what : Text) : M ConcreteType := do
  let e ← Stage.some! ((← get).program.expr? x)
  let t ← onStore do
    let h ← TypeStore.resolve e.type scope
    TypeStore.getType h
  if t.kind.isAggregate then return t
  Stage.internal (what ++ " on non-aggregate " ++ t.name)

/-- Follow what an expression refers to. -/
def followExpr (scope : List Handle) (e : Expr) : M Unit := do
  requireType scope e.type
  match e.kind with
  | .call => do
    let d ← calledDecl "call" e.decl
    if d.has .native then return
    let args ← onStore (TypeStore.resolveAll e.typeArgs scope)
    push { kind := .function, decl := e.decl, args := args }
  | .funcRef => do
    let d ← calledDecl "reference" e.decl
    if d.has .native then
      if e.decl ∉ (← get).badDecls then
        rejectDecl e.decl .badNative d.span
          ("native function " ++ d.name ++ " cannot be used as a value")
      return
    let args ← onStore (TypeStore.resolveAll e.typeArgs scope)
    push { kind := .function, decl := e.decl, args := args, indirect := true }
  | .methodCall => do
    let t ← receiver scope e.x "method call"
    match t.method? e.name with
    | some d => push { kind := .method, decl := d, owner := t.handle }
    | none => Stage.internal (t.name ++ " has no method " ++ e.name)
  | .operator => do
    let t ← receiver scope e.x "operator"
    match t.operator? e.op with
    | some d => push { kind := .operator, decl := d, owner := t.handle }
    | none => Stage.internal (t.name ++ " has no operator " ++ e.op.name)
  | .member => do
    let t ← receiver scope e.x "member access"
    if (t.member? e.name).isNone then
      Stage.internal (t.name ++ " has no member " ++ e.name)
  | .construct => do
    let t ← onStore do
      let h ← TypeStore.resolve e.type scope
      TypeStore.getType h
    if !t.kind.isAggregate then
      Stage.internal ("construct of non-aggregate " ++ t.name)
    if t.init ≠ 0 then push { kind := .constructor, decl := t.init, owner := t.handle }
    else if t.kind = .cls then modify fun s => { s with needsAlloc := true }
  | .alloc => modify fun s => { s with needsAlloc := true }
  | _ => pure ()

/-- Follow what a walk met. -/
def followWalk (scope : List Handle) (w : Walked) : M Unit := do
  for v in w.visits do
    match v with
    | .expr _ e => followExpr scope e
    | .stmt _ _ => pure ()
  Stage.ofExcept w.ended

/-- Follow a global: its type and its initial value. -/
def followGlobal (d : Decl) : M Unit := do
  if d.kind ≠ .global then return
  let g ← Stage.some! d.global
  requireType [] g.type
  followWalk [] ((← get).program.visitExpr g.init)

/-- Follow the members of a type that is laid out. -/
def followLayout (owner : Handle) : M Unit := do
  onLayouts (Layouts.add owner)
  let type ← onStore (TypeStore.getType owner)
  for m in type.members do
    require m.type

/-- Follow the globals and the main statements. -/
def followEntry : M Unit := do
  let p := (← get).program
  for (_, d) in p.numberedDecls do
    followGlobal d
  for l in p.mainLocals do
    requireType [] l.type
  followWalk [] (p.visitStmts p.main)

/-- Note that the constructor of a class allocates the instance. -/
def followSelf (f : FunctionData) (owner : Handle) : M Unit := do
  if f.kind ≠ .constructor then return
  let kind ← Stage.ofExcept ((← get).layouts.store.kindOf owner)
  if kind = .cls then modify fun s => { s with needsAlloc := true }

/-- Follow the signature, the locals and the body of a function. -/
def followFunction (t : Task) : M Unit := do
  let p := (← get).program
  match (p.decl? t.decl).bind Decl.function with
  | none =>
    Stage.internal ("task " ++ t.name ++ ": declaration " ++ Text.ofNat t.decl.toNat
      ++ " is not a function")
  | some f => do
    let scope := t.scope (← get).layouts.store
    require t.owner
    requireType scope f.result
    for l in f.locals do
      requireType scope l.type
    followSelf f t.owner
    if f.hasBody then
      followWalk scope (p.visitStmts f.body)

/-- Follow everything a task refers to. -/
def follow (t : Task) : M Unit :=
  match t.kind with
  | .layout => followLayout t.owner
  | .entry => followEntry
  | .function | .method | .operator | .constructor => followFunction t

/-- Look at the newest task; tells whether there was one. -/
def step (parent : Nat) : M Bool := do
  match (← get).work with
  | [] => return false
  | i :: rest =>
    modify fun s => { s with work := rest }
    let t ← Stage.some! (← get).tasks[i]?
    modify fun s =>
      { s with tracer := s.tracer.point .task "schedule" (t.kind.name ++ " " ++ t.name) parent }
    follow t
    return true

/-- Look at tasks until none is left, at most `fuel` of them. -/
def drain (parent : Nat) : Nat → M Unit
  | 0 => throw .exhausted
  | fuel + 1 => do
    if ← step parent then drain parent fuel

/-- How many tasks a program may need; only programs that need infinitely many reach it. -/
def taskLimit : Nat := 1000000

/-- Find out what to compile, under a parent span of the trace. -/
def run (entryExport : Text) (parent : Nat) (limit : Nat := taskLimit) : M Plan := do
  let entryExport := if entryExport = "" then defaultEntryExport else entryExport
  push { kind := .entry }
  for (id, d) in (← get).program.numberedDecls do
    checkDecl id d
  for (id, d) in (← get).program.numberedDecls do
    seedDecl entryExport id d
  drain parent limit
  let s ← get
  return {
    tasks := s.tasks.toList
    layouts := s.layouts.registered
    needsAlloc := s.needsAlloc
    exports := s.exports }

/-- The state before scheduling a program. -/
def ofProgram (p : Program) (bag : Bag := {}) (tracer : Trace.Tracer := {}) : Scheduler :=
  { layouts := { store := TypeStore.ofProgram p }, bag := bag, tracer := tracer }

end Scheduler

end WasmBackend
