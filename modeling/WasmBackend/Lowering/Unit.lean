import WasmBackend.Lowering.Stmt

/-!
# Lowering a plan

Every task that gives code becomes a function of the unit; foreign functions become imports.  The
entry resets the heap, initialises the globals and runs the main statements.  A unit whose code
allocates gets a bump allocator.
-/

namespace WasmBackend.Lowering

open Ir (Var Function CodeUnit GlobalVar)

/-- Run a step outside any function. -/
def outside {α : Type} (x : M α) : Step α :=
  x { name := "" }

/-- The variables from a number on. -/
def varsFrom (start count : Nat) : List Var :=
  List.range' start count

/-- The variables of the parameters among those of all locals. -/
def paramVars (params : List LocalId) (sizes : List Nat) (start : Nat)
    (locals : Array (List Var)) : Array (List Var) :=
  match params, sizes with
  | p :: ps, n :: ns =>
    paramVars ps ns (start + n) (locals.set! p.toNat (varsFrom start n))
  | _, _ => locals

/-- New variables for the locals of a kind. -/
def declareLocals (kind : LocalKind) (locals : List Local) (vars : Array (List Var)) :
    M (Array (List Var)) :=
  locals.zipIdx.foldlM
    (fun vars (l, i) => do
      if l.kind = kind then
        let slots ← slotsOf (← resolve l.type)
        return vars.set! i (← newVars slots)
      else return vars)
    vars

/-- Whether the function has a receiver in front of its parameters. -/
def hasReceiver : M Bool := do
  match (← read).function.map FunctionData.kind with
  | none | some .plain | some .constructor => return false
  | _ => return true

/-- The slots of the receiver, if there is one. -/
def receiverSlots (owner : Handle) : M (List Prim) := do
  if ← hasReceiver then slotsOf owner else return []

/-- The slots of every parameter. -/
def paramSlots : M (List (List Prim)) := do
  let locals ← frameLocals
  (((← read).function.map FunctionData.params).getD []).mapM fun p => do
    let l ← expect locals[p.toNat]?
    slotsOf (← resolve l.type)

/-- The variables of every local: those of the parameters follow the receiver's, the others are
new. -/
def frameVars (receiver : Nat) (params : List (List Prim)) : M (Array (List Var)) := do
  let locals ← frameLocals
  let ids := ((← read).function.map FunctionData.params).getD []
  let vars :=
    paramVars ids (params.map List.length) receiver (Array.replicate locals.length [])
  declareLocals .mutable locals (← declareLocals .fixed locals vars)

/-- The signature and frame of a function.  Its variables are the receiver, the parameters, the
fixed locals, then the mutable ones. -/
def openFunction (owner : Handle) (result : Handle) : M (Frame × Function) := do
  modify fun s => { s with vars := #[], blocks := #[], nesting := [[]], current := 0, loops := [] }
  let hasSelf ← hasReceiver
  let selfSlots ← receiverSlots owner
  let params ← paramSlots
  let resultSlots ← slotsOf result
  let native := selfSlots ++ params.flatten
  modify fun s => { s with vars := native.toArray }
  let vars ← frameVars selfSlots.length params
  openBasic
  let frame ← read
  let opened :=
    { frame with
      self := varsFrom 0 selfSlots.length
      selfType := if hasSelf then owner else 0
      locals := vars }
  return (opened, { name := frame.name, params := native, result := resultSlots.headD .none })

/-- Put a function with the blocks lowered for it into the unit. -/
def closeFunction (f : Function) : M Unit :=
  modify fun s =>
    { s with
      unit :=
        { s.unit with
          funcs := s.unit.funcs
            ++ [{ f with
                  vars := s.vars, blocks := s.blocks, body := (s.nesting.headD []).reverse }] } }

/-- Lower a function around its body; `close` gives it what its blocks do not say. -/
def lowerFunction (owner result : Handle) (body : Function → M Unit)
    (close : Function → Function) : M Unit := do
  let (opened, f) ← openFunction owner result
  withReader (fun _ => opened) (body f)
  closeFunction (close f)

/-- The receiver of a constructor: a new instance, or slots set to zero. -/
def constructorSelf (owner : Handle) : M (List Var) := do
  let t ← typeOf owner
  if t.kind = .cls then return [← allocate t.size]
  else
    let vars ← newVars (← ofLayout t.slots)
    clear vars
    return vars

/-- Whether the current block never falls through. -/
def currentTerminated : M Bool := do
  let s ← get
  return ((s.blocks[s.current - 1]?).map Ir.Block.isTerminated).getD false

/-- What a function does where its body falls through. -/
def finishBody (data : FunctionData) (result : Prim) : M Unit := do
  if ← currentTerminated then pure ()
  else if data.kind = .constructor then lowerReturn (← read).self
  else if result ≠ .none then emit { op := .unreachable }

/-- The body of a function; a constructor makes its receiver first. -/
def lowerBody (owner : Handle) (data : FunctionData) (result : Prim) : M Unit := do
  let statements : M Unit := do
    lowerStmts data.body
    finishBody data result
  if data.kind = .constructor then
    let self ← constructorSelf owner
    withReader (fun frame => { frame with self := self, selfType := owner }) statements
  else statements

/-- Reset the heap. -/
def resetHeap : M Unit := do
  let base ← newVar .pointer
  emit { op := .heapBase, dst := [base], storage := .pointer }
  emit { op := .globalSet, args := [base], callee := Ir.heapPointerGlobal, storage := .pointer }

/-- Give a global its first value, if it has one. -/
def initGlobal (id : DeclId) (d : Decl) : M Unit := do
  if d.kind = .global then
    let g ← expect d.global
    if g.init ≠ 0 then
      let h ← resolve g.type
      let index ← globalIndex id
      discard (lowerExpr g.init (some (.global h index 0)))

/-- The body of the entry. -/
def lowerEntry (needsAlloc : Bool) : M Unit := do
  if needsAlloc then resetHeap
  let p ← program
  for (id, d) in p.numberedDecls do
    initGlobal id d
  lowerStmts p.main

/-- The import of a foreign function. -/
def lowerForeign (t : Task) (d : Decl) (data : FunctionData) : M Unit := do
  let params ← data.params.mapM fun p => do
    let l ← expect data.locals[p.toNat]?
    resolve l.type
  let result ← resolve data.result
  let n ← ofLayout (← typeOf result).slotCount
  if 1 < n then
    report (.error .unsupported d.span
      ("foreign function " ++ d.name ++ " cannot return a " ++ Text.ofNat n ++ "-slot value"))
  let sig ← signatureOf params result
  modify fun s =>
    { s with
      unit :=
        { s.unit with
          imports := s.unit.imports
            ++ [{ name := t.name, symbol := d.foreignSymbol, sig := sig,
                  inTable := t.indirect }] } }

/-- The function of a declaration. -/
def lowerDeclared (t : Task) (d : Decl) (data : FunctionData) : M Unit := do
  let result ← resolve data.result
  let result := if data.kind = .constructor then t.owner else result
  lowerFunction t.owner result (fun f => lowerBody t.owner data f.result) fun f =>
    { f with
      inTable := t.indirect
      inlined := d.has .inlined
      exportName := if d.has .exported ∧ data.kind = .plain then d.exportName else "" }

/-- Lower one task. -/
def lowerTask (globals : List (DeclId × Nat)) (needsAlloc : Bool) (t : Task) :
    Step Unit := do
  let s ← get
  let frame : Frame := { name := t.name, scope := t.scope s.store, globals := globals }
  if t.kind = .entry then
    lowerFunction 0 Handle.void (fun _ => lowerEntry needsAlloc)
      (fun f => { f with exportName := s.unit.entryExport }) frame
  else
    match s.store.program.decl? t.decl with
    | some d =>
      match d.function with
      | some data =>
        let frame := { frame with function := some data }
        if d.has .foreign then lowerForeign t d data frame
        else lowerDeclared t d data frame
      | none => internal ("lower: task " ++ t.name ++ " has no function declaration") frame
    | none => internal ("lower: task " ++ t.name ++ " has no function declaration") frame

/-- The bump allocator: gives the next free address and moves it up to a multiple of eight. -/
def allocator : Function :=
  let p := Prim.pointer
  let instrs : List Ir.Instr :=
    [{ op := .globalGet, dst := [1], callee := Ir.heapPointerGlobal, storage := p },
      { op := .add, dst := [2], args := [1, 0], storage := p },
      { op := .const, dst := [3], imm := 7, storage := p },
      { op := .add, dst := [4], args := [2, 3], storage := p },
      { op := .const, dst := [5], imm := -8, storage := p },
      { op := .and, dst := [6], args := [4, 5], storage := p },
      { op := .globalSet, args := [6], callee := Ir.heapPointerGlobal, storage := p },
      { op := .ret, args := [1] }]
  { name := allocFunction
    params := [p]
    result := p
    vars := Array.replicate 7 p
    blocks := #[{ instrs := instrs }]
    body := [1] }

/-- Give a global the next number, and the unit its size. -/
def declareGlobal (globals : List (DeclId × Nat)) (id : DeclId) (d : Decl) :
    M (List (DeclId × Nat)) := do
  if d.kind = .global then
    let g ← expect d.global
    let h ← resolve g.type
    let size ← ofLayout (← typeOf h).valueSize
    let global : GlobalVar := { name := d.name, size := size, mutable := g.mutable }
    modify fun s => { s with unit := { s.unit with globals := s.unit.globals ++ [global] } }
    return globals ++ [(id, globals.length)]
  else return globals

/-- Number the globals of the program. -/
def declareGlobals : M (List (DeclId × Nat)) := do
  (← program).numberedDecls.foldlM (fun globals (id, d) => declareGlobal globals id d) []

/-- Give every function that is used as a value its place in the table. -/
def fillTable (tasks : List Task) : Step Unit := do
  for t in tasks do
    if t.indirect then modify fun s => { s with unit := (s.unit.internTable t.name).2 }

/-- Lower every task that gives code. -/
def lowerTasks (globals : List (DeclId × Nat)) (needsAlloc : Bool) (parent : Nat)
    (tasks : List Task) : Step Unit := do
  for t in tasks do
    if t.emits then
      modify fun s => { s with tracer := s.tracer.point .task "lower" t.name parent }
      lowerTask globals needsAlloc t

/-- Lower everything a plan asks for, under a parent span of the trace. -/
def lowerPlan (plan : Plan) (entryExport : Text) (parent : Nat) : Step CodeUnit := do
  let entryExport := if entryExport = "" then defaultEntryExport else entryExport
  modify fun s => { s with unit := { entry := entryFunction, entryExport := entryExport } }
  let globals ← outside declareGlobals
  fillTable plan.tasks
  lowerTasks globals plan.needsAlloc parent plan.tasks
  if plan.needsAlloc then
    modify fun s => { s with unit := { s.unit with funcs := s.unit.funcs ++ [allocator] } }
  return (← get).unit

/-- Lower a plan as a phase of the compilation. -/
def run (plan : Plan) (entryExport : Text) (parent : Nat) : Stage Lowering CodeUnit :=
  ExceptT.adapt LoweringFault.failure (lowerPlan plan entryExport parent)

end WasmBackend.Lowering
