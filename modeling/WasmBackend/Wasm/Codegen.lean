import WasmBackend.Ir.CodeUnit
import WasmBackend.Text.Printable
import WasmBackend.Wasm.Memory
import WasmBackend.Wasm.Module
import WasmBackend.Wasm.Selection
import WasmBackend.Wasm.Usage

/-!
# Code of a function

Code is generated block by block while the operand stack is simulated as a list of variables.
Before an instruction its operands are brought to the top of the stack: what already lies there in
the right order is used as it is, the rest is loaded from locals or computed again, and what is in
the way is moved into locals first.
-/

namespace WasmBackend.Wasm

open Ir (Block BlockId CodeUnit Copy Function Instr Signature Var)

/-- The machine type of a signature. -/
def FuncType.ofSignature (s : Signature) : FuncType :=
  { params := s.params.map Prim.valType
    results := if s.result = .none then [] else [s.result.valType] }

/-- The numbers of variables as a message shows them. -/
def renderVars (vs : List Var) : Text :=
  "[" ++ Text.join " " (vs.map Text.ofNat) ++ "]"

/-- Why no code can be generated for a function. -/
inductive CodeFault where
  /-- A variable that is needed is neither on the stack nor in a local. -/
  | unavailable (v : Var)
  /-- The operands do not lie on top of the stack. -/
  | misplaced (stack operands : List Var)
  /-- A block that falls through leaves values on the stack. -/
  | leftover (block : BlockId) (stack : List Var)
  /-- A branch names a construct that is not around it. -/
  | outOfScope (target : BlockId)
  /-- Anything that the stack and the constructs around have no part in. -/
  | other (failure : Failure)
deriving DecidableEq, Repr, Inhabited

/-- The failure of the compilation; the message starts with the function. -/
def CodeFault.failure (function : Text) : CodeFault → Failure
  | unavailable v =>
    .internal (function ++ ": v" ++ Text.ofNat v ++ " is neither on the stack nor in a local")
  | misplaced stack operands =>
    .internal (function ++ ": stack " ++ renderVars stack.reverse ++ " does not end with operands "
      ++ renderVars operands)
  | leftover block stack =>
    .internal (function ++ ": block " ++ Text.ofNat block ++ " leaves " ++ renderVars stack.reverse
      ++ " on the stack")
  | outOfScope target =>
    .internal (function ++ ": branch to block " ++ Text.ofNat target ++ " outside its scope")
  | other failure => failure

/-- A construct that branches can name.  A loop has two: behind it and at its head. -/
structure Label where
  block : BlockId := 0
  head : Bool := false
deriving DecidableEq, Repr, Inhabited

/-- What does not change while the code of a function is generated. -/
structure CodeContext where
  unit : CodeUnit
  memory : MemoryPlan
  /-- The number of every function by name. -/
  functions : List (Text × Nat)
  function : Function
  usage : Usage
  /-- The constructs around, innermost first. -/
  labels : List Label := []
deriving Inhabited

/-- The code generated so far. -/
structure CodeState where
  /-- The function types of the module. -/
  types : List FuncType
  /-- The variables that got a local behind the parameters, with its type. -/
  locals : List (Var × ValType) := []
  /-- The variables moved from the stack into their local. -/
  spilled : List Var := []
  /-- The variables on the operand stack, top first. -/
  stack : List Var := []
  /-- The instructions of the body under way, newest first. -/
  code : List Instruction := []
deriving Inhabited

namespace Codegen

abbrev M := ReaderT CodeContext (ExceptT CodeFault (StateM CodeState))

def ofExcept {α : Type} (x : Except Failure α) : M α :=
  match x with
  | .ok a => pure a
  | .error e => throw (.other e)

/-- Stop with a broken invariant of the function. -/
def internal {α : Type} (message : Text) : M α := do
  throw (.other (.internal ((← read).function.name ++ ": " ++ message)))

/-- Append an instruction. -/
def put (i : Instruction) : M Unit :=
  modify fun s => { s with code := i :: s.code }

/-- The instructions a computation appends, as a body of their own. -/
def bodyOf (x : M Unit) : M (List Instruction) := do
  let outer := (← get).code
  modify fun s => { s with code := [] }
  x
  let body := (← get).code.reverse
  modify fun s => { s with code := outer }
  return body

def paramCount : M Nat :=
  return (← read).function.params.length

/-- Whether a variable is kept in a local from its definition on. -/
def inLocal (v : Var) : M Bool :=
  return (← read).usage.inLocal (← paramCount) v

/-- Whether a variable can be brought to the stack from elsewhere. -/
def available (v : Var) : M Bool := do
  return ((← read).usage.replay? v).isSome || (← inLocal v) || v ∈ (← get).spilled

/-- The local of a variable; it gets the next free one on first use. -/
def localOf (v : Var) : M Nat := do
  let params ← paramCount
  if v < params then return v
  let locals := (← get).locals
  match locals.findIdx? fun l => l.1 = v with
  | some i => return params + i
  | none =>
    let prim ← ofExcept ((← read).function.varPrim v)
    modify fun s => { s with locals := s.locals ++ [(v, prim.valType)] }
    return params + locals.length

/-- The number of a function type, which is added to the module on first use. -/
def typeIndex (sig : Signature) : M Nat := do
  let (i, types) := (FuncType.ofSignature sig).intern (← get).types
  modify fun s => { s with types := types }
  return i

/-- The number of a named function. -/
def functionIndex (functions : List (Text × Nat)) (name : Text) : Except Failure Nat :=
  match functions.lookup name with
  | some i => .ok i
  | none => .error (.internal ("wasm: call to unknown function " ++ name))

/-- The number of a global of the machine. -/
def globalIndex (name : Text) : M Nat := do
  if name = Ir.heapBaseGlobal then return 0
  if name = Ir.heapPointerGlobal then return 1
  internal ("unknown global " ++ name.quoted)

/-- Compute a reproducible value again. -/
def replay (i : Instr) : M Unit := do
  match i.op with
  | .const => put (selectConst i.storage i.imm i.float)
  | .addr => put (.i32Const (← ofExcept ((← read).memory.address i.zone i.index i.imm)))
  | .funcRef =>
    match (← read).unit.table.findIdx? fun n => n = i.callee with
    | some slot => put (.i32Const slot.toUInt32)
    | none => internal (i.callee ++ " is referenced but not in the table")
  | .heapBase => put (.globalGet (← globalIndex Ir.heapBaseGlobal))
  | op => internal (op.name ++ " is not reproducible")

/-- Push a variable that is not on the stack. -/
def load (v : Var) : M Unit := do
  match (← read).usage.replay? v with
  | some i => replay i
  | none =>
    if (← inLocal v) || v ∈ (← get).spilled then put (.localGet (← localOf v))
    else throw (.unavailable v)
  modify fun s => { s with stack := v :: s.stack }

/-- Move the stack entries from the lowest wanted one upward into locals. -/
def spill (wanted : List Var) : M Unit := do
  let stack := (← get).stack
  let high := (stack.reverse.dropWhile fun v => v ∉ wanted).reverse
  for v in high do
    put (.localSet (← localOf v))
    modify fun s => { s with spilled := v :: s.spilled }
  modify fun s => { s with stack := stack.drop high.length }

/-- The largest number, at most `n`, of operands that already lie on top of the stack in order
while the others can be loaded. -/
def reusable (args : List Var) : Nat → M (Option Nat)
  | 0 => do
    if ← args.allM available then return some 0
    return none
  | n + 1 => do
    let stack := (← get).stack
    if stack.take (n + 1) = (args.take (n + 1)).reverse then
      if ← (args.drop (n + 1)).allM available then return some (n + 1)
    reusable args n

/-- Bring operands to the top of the stack, the last on top, and consume them. -/
def schedule (args : List Var) : M Unit := do
  let depth := (← get).stack.length
  let reuse ←
    match ← reusable args (min args.length depth) with
    | some n => pure n
    | none => do
      spill args
      pure 0
  for v in args.drop reuse do
    load v
  let stack := (← get).stack
  if args.length ≤ stack.length ∧ stack.take args.length = args.reverse then
    modify fun s => { s with stack := stack.drop args.length }
  else throw (.misplaced stack args)

/-- Put the result of an instruction where its uses expect it. -/
def define (i : Instr) : M Unit := do
  if 1 < i.dst.length then
    internal (i.op.name ++ " defines " ++ Text.ofNat i.dst.length ++ " values")
  for v in i.dst do
    if (← read).usage.uses.getD v 0 = 0 then put .drop
    else if ← inLocal v then put (.localSet (← localOf v))
    else modify fun s => { s with stack := v :: s.stack }

/-- Make assignments at once: all sources are read before a destination is written. -/
def copyAll (cs : List Copy) : M Unit := do
  if cs.isEmpty then return
  schedule (cs.map Copy.src)
  for c in cs.reverse do
    put (.localSet (← localOf c.dst))

/-- How many constructs lie between a branch and the one it names. -/
def depthOf (target : BlockId) (head : Bool) : M Nat := do
  match (← read).labels.findIdx? fun l => l = ⟨target, head⟩ with
  | some n => return n
  | none => throw (.outOfScope target)

/-- Generate code inside one more construct. -/
def inside {α : Type} (l : Label) (x : M α) : M α :=
  withReader (fun c => { c with labels := l :: c.labels }) x

/-- Generate an intrinsic. -/
def native (i : Instr) : M Unit := do
  let vt := i.storage.valType
  match floatIntrinsic? i.callee, intIntrinsic? i.callee with
  | some op, _ =>
    if !holdsFloat vt then
      internal ("float intrinsic " ++ i.callee ++ " on " ++ i.storage.name)
    schedule i.args
    put (.floatUnary (widthOf vt) op)
    define i
  | none, some op =>
    if holdsFloat vt then
      internal ("integer intrinsic " ++ i.callee ++ " on " ++ i.storage.name)
    schedule i.args
    put (.intUnary (widthOf vt) op)
    define i
  | none, none =>
    if i.callee = "memory_size" then
      put .memorySize
      define i
    else if i.callee = "memory_grow" then
      schedule i.args
      put .memoryGrow
      define i
    else if i.callee = "unreachable" then put .unreachable
    else internal ("unknown intrinsic " ++ i.callee)

/-- Generate a branch that is taken when its argument is not zero. -/
def exitIf (i : Instr) : M Unit := do
  schedule i.args
  if i.copies.isEmpty then put (.brIf (← depthOf i.target false))
  else
    put (.ifThen (← bodyOf (inside {} do
      copyAll i.copies
      put (.br (← depthOf i.target false)))))

/-- Generate an instruction. -/
def generate (i : Instr) : M Unit := do
  match i.op with
  | .phi | .const | .addr | .funcRef | .heapBase => return
  | .copy =>
    schedule i.args
    define i
  | .add | .sub | .mul | .div | .rem | .and | .or | .xor | .shl | .shr | .eq | .ne | .lt | .le
  | .gt | .ge =>
    schedule i.args
    put (← ofExcept (selectBinary (← read).function.name i.op i.storage))
    define i
  | .neg =>
    schedule i.args
    if !holdsFloat i.storage.valType then internal "integer negation reached emission"
    put (.floatUnary (widthOf i.storage.valType) .neg)
    define i
  | .eqz =>
    schedule i.args
    (selectEqz i.storage).forM put
    define i
  | .convert =>
    schedule i.args
    put (.convert (← ofExcept (selectConversion i.source i.storage)))
    define i
  | .load =>
    schedule i.args
    put (.load (← ofExcept (selectLoad i.storage)) i.offset)
    define i
  | .store =>
    schedule i.args
    put (.store (← ofExcept (selectStore i.storage)) i.offset)
  | .call =>
    schedule i.args
    put (.call (← ofExcept (functionIndex (← read).functions i.callee)))
    define i
  | .callIndirect =>
    schedule i.args
    match i.sig with
    | none => internal "indirect call without signature"
    | some sig =>
      put (.callIndirect (← typeIndex sig))
      define i
  | .globalGet =>
    put (.globalGet (← globalIndex i.callee))
    define i
  | .globalSet =>
    schedule i.args
    put (.globalSet (← globalIndex i.callee))
  | .ret =>
    schedule i.args
    put .ret
  | .exit =>
    copyAll i.copies
    put (.br (← depthOf i.target false))
  | .next =>
    copyAll i.copies
    put (.br (← depthOf i.target true))
  | .exitIf => exitIf i
  | .native => native i
  | .unreachable => put .unreachable
  | .unknown _ _ => internal ("cannot emit " ++ i.op.name)

/-- Whether the last of some blocks never falls through. -/
def endsTerminated (ids : List BlockId) : M Bool := do
  match ids.getLast? with
  | none => return false
  | some id => return (← ofExcept ((← read).function.block id)).isTerminated

/-- Generate a basic block; nothing may stay on the stack where it falls through. -/
def basicBlock (id : BlockId) (b : Block) : M Unit := do
  b.instrs.forM generate
  if !b.isTerminated then
    copyAll b.exitCopies
    let stack := (← get).stack
    if !stack.isEmpty then throw (.leftover id stack)
  modify fun s => { s with stack := [] }

/-- Generate a block; `blocks` generates the blocks inside it. -/
def block (blocks : List BlockId → M Unit) (id : BlockId) (b : Block) : M Unit := do
  match b.kind with
  | .basic => basicBlock id b
  | .cond =>
    schedule [b.cond]
    let body ← inside {} (bodyOf (blocks b.body))
    if b.aroundCopies.isEmpty then put (.ifThen body)
    else put (.ifElse body (← inside {} (bodyOf (copyAll b.aroundCopies))))
  | .branch =>
    schedule [b.cond]
    let body ← inside {} (bodyOf (blocks b.body))
    put (.ifElse body (← inside {} (bodyOf (blocks b.otherwise))))
  | .loop =>
    copyAll b.entryCopies
    let body ← inside ⟨id, false⟩ (inside ⟨id, true⟩ (bodyOf do
      blocks b.body
      if !(← endsTerminated b.body) then put (.br 0)))
    put (.block [.loop body])
  | .breakable => put (.block (← inside ⟨id, false⟩ (bodyOf (blocks b.body))))
  | .unknown _ _ => return

/-- Generate blocks at most `depth` levels deep. -/
def blocks : Nat → List BlockId → M Unit
  | 0, _ => throw (.other .exhausted)
  | depth + 1, ids =>
    ids.forM fun id => do
      block (blocks depth) id (← ofExcept ((← read).function.block id))

/-- Generate the body of the function. -/
def body : M Body := do
  let f := (← read).function
  blocks (f.treeDepth + 1) f.body
  if f.result ≠ .none ∧ !(← endsTerminated f.body) then put .unreachable
  let s ← get
  return { locals := s.locals.map Prod.snd, code := s.code.reverse }

end Codegen

end WasmBackend.Wasm
