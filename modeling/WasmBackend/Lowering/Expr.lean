import WasmBackend.Lowering.Value
import WasmBackend.Plan.Task
import WasmBackend.Text.Canonical
import WasmBackend.Text.Printable

/-!
# Lowering expressions

An expression is lowered either into variables of its own or straight into a given place.  Each
form of expression has its own function here, which gets the lowering of subexpressions as an
argument; `lowerExpr` ties them together with a bound on the depth of the tree.
-/

namespace WasmBackend.Lowering

open Ir (Var Signature Opcode)

/-- How a subexpression is lowered: into a given place, or into variables. -/
abbrev Sub := ExprId → Option Value → M Value

/-- The variables that hold an expression's value. -/
def rvalue (sub : Sub) (id : ExprId) : M (List Var) := do
  readValue (← sub id none)

/-- The variables of several expressions, one after another. -/
def arguments (sub : Sub) (ids : List ExprId) : M (List Var) :=
  return (← ids.mapM (rvalue sub)).flatten

/-- The type of an expression that has to exist. -/
def exprType (id : ExprId) : M Handle := do
  let e ← expect ((← program).expr? id)
  resolve e.type

/-- The signature of a function type: all slots of the parameters and the first of the result. -/
def signatureOf (params : List Handle) (result : Handle) : M Signature := do
  let slots ← params.mapM slotsOf
  let results ← slotsOf result
  return ⟨slots.flatten, results.headD .none⟩

/-- The scratch slot of a position and primitive. -/
def scratchSlot (position : Nat) (p : Prim) : M Nat := do
  let (i, unit) := (← get).unit.internScratch position p
  modify fun s => { s with unit := unit }
  return i

/-- Emit a call and collect its result: the first slot natively, the others from scratch memory. -/
def emitCall (call : Ir.Instr) (result : Handle) : M (List Var) := do
  match ← slotsOf result with
  | [] =>
    emit call
    return []
  | p :: rest =>
    let v ← newVar p
    emit { call with dst := [v] }
    let others ← rest.zipIdx.mapM fun (q, k) => do
      let slot ← scratchSlot (k + 1) q
      let base ← address .scratch slot
      let w ← newVar q
      emit { op := .load, dst := [w], args := [base], storage := q }
      return w
    return v :: others

/-- A call of a function by name. -/
def callFunction (callee : Text) (args : List Var) (result : Handle) : M (List Var) :=
  emitCall { op := .call, args := args, callee := callee } result

/-- A call of the allocator for a number of bytes. -/
def allocate (size : Nat) : M Var := do
  let n ← constant .pointer (Int64.ofNat size)
  let result ← onStore (TypeStore.prim .pointer)
  first (← callFunction allocFunction [n] result)

/-- The symbol of the function an expression refers to. -/
def calleeName (e : Expr) : M Text := do
  let args ← onStore (TypeStore.resolveAll e.typeArgs (← read).scope)
  onStore (TypeStore.functionName e.decl args)

/-- The absolute value without a branch: with `s` the sign spread over the register, `x xor s`
minus `s`. -/
def absolute (x : Var) (storage : Prim) (dst : List Var) : M Unit := do
  let shift ← constant storage (Int64.ofNat (storage.valType.bits - 1))
  let sign ← operation .shr storage.asSigned storage [x, shift]
  let flipped ← operation .xor storage storage [x, sign]
  emit { op := .sub, dst := dst, args := [flipped, sign], storage := storage }

/-- The variable for the result of an intrinsic, if there is one. -/
def nativeResult (result : Handle) : M (List Var) := do
  match ← slotsOf result with
  | [] => return []
  | p :: _ => return [← newVar p]

/-- The primitive an intrinsic works on. -/
def nativeStorage (args : List Var) : M Prim :=
  match args with
  | [] => return .i32
  | x :: _ => primOf x

/-- An intrinsic in place of a call. -/
def lowerNative (name : Text) (args : List Var) (result : Handle) : M (List Var) := do
  let dst ← nativeResult result
  let storage ← nativeStorage args
  if name = "abs" ∧ !storage.isFloat then
    let x ← first args
    absolute x storage dst
  else
    emit { op := .native, dst := dst, args := args, callee := name, storage := storage }
  return dst

/-- A direct call. -/
def lowerCall (sub : Sub) (e : Expr) (result : Handle) : M (List Var) := do
  match (← program).decl? e.decl with
  | some d =>
    if d.function.isNone then
      internalHere ("call to missing function " ++ Text.ofNat e.decl.toNat)
    else if d.has .native then
      let args ← arguments sub e.args
      lowerNative d.nativeName args result
    else
      let name ← calleeName e
      let args ← arguments sub e.args
      callFunction name args result
  | none => internalHere ("call to missing function " ++ Text.ofNat e.decl.toNat)

/-- A call of a function value. -/
def lowerCallValue (sub : Sub) (e : Expr) (result : Handle) : M (List Var) := do
  let callee ← first (← rvalue sub e.x)
  let t ← typeOf (← exprType e.x)
  if t.kind ≠ .function then
    internalHere ("calling a value of type " ++ t.name)
  let sig ← signatureOf t.params t.result
  let args ← arguments sub e.args
  emitCall { op := .callIndirect, args := args ++ [callee], sig := some sig } result

/-- A call of a method. -/
def lowerMethodCall (sub : Sub) (e : Expr) (result : Handle) : M (List Var) := do
  let owner ← exprType e.x
  let t ← typeOf owner
  match t.method? e.name with
  | none => internal (t.name ++ " has no method " ++ e.name)
  | some decl =>
    let receiver ← rvalue sub e.x
    let args ← arguments sub e.args
    let name ← onStore (TypeStore.memberName owner decl)
    callFunction name (receiver ++ args) result

/-- A call of a user's operator. -/
def lowerOperator (sub : Sub) (e : Expr) (result : Handle) : M (List Var) := do
  let owner ← exprType e.x
  let t ← typeOf owner
  match t.operator? e.op with
  | none => internal (t.name ++ " has no operator " ++ e.op.name)
  | some decl =>
    let left ← rvalue sub e.x
    let right ← if e.y = 0 then pure [] else rvalue sub e.y
    let name ← onStore (TypeStore.memberName owner decl)
    callFunction name (left ++ right) result

/-- The instruction of a builtin binary operator. -/
def binaryOpcode? : Operator → Option Opcode
  | .add => some .add
  | .sub => some .sub
  | .mul => some .mul
  | .div => some .div
  | .rem => some .rem
  | .and => some .and
  | .or => some .or
  | .xor => some .xor
  | .shl => some .shl
  | .shr => some .shr
  | .eq => some .eq
  | .ne => some .ne
  | .lt => some .lt
  | .le => some .le
  | .gt => some .gt
  | .ge => some .ge
  | _ => none

/-- Whether a binary instruction works on floating-point numbers. -/
def hasFloatForm : Opcode → Bool
  | .add | .sub | .mul | .div | .eq | .ne | .lt | .le | .gt | .ge => true
  | _ => false

/-- A logical operator: a breakable block that is left once the left operand decides. -/
def lowerLogical (sub : Sub) (e : Expr) : M Var := do
  let r ← newVar .bool
  let block ← newBlock .breakable
  let body ← nested do
    let x ← first (← rvalue sub e.x)
    emit { op := .copy, dst := [r], args := [x] }
    let test ← if e.op = .logAnd then do operation .eqz (← primOf x) .bool [x] else pure x
    emit { op := .exitIf, args := [test], target := block }
    openBasic
    let y ← first (← rvalue sub e.y)
    emit { op := .copy, dst := [r], args := [y] }
  updateBlock block fun b => { b with body := body }
  openBasic
  return r

/-- A builtin binary operator on primitives. -/
def lowerBinary (sub : Sub) (e : Expr) (t : ConcreteType) : M Var := do
  if e.op = .logAnd ∨ e.op = .logOr then lowerLogical sub e
  else
    match binaryOpcode? e.op with
    | none => internalHere ("unknown binary operator " ++ e.op.name)
    | some op =>
      let x ← first (← rvalue sub e.x)
      let y ← first (← rvalue sub e.y)
      let p ← primOf x
      if p.isFloat ∧ !hasFloatForm op then
        report (.error .unsupported e.span
          ("operator " ++ e.op.name ++ " is not defined on " ++ p.name))
      let result ← expect (← ofLayout t.slots).head?
      operation op p result [x, y]

/-- A builtin unary operator on primitives. -/
def lowerUnary (sub : Sub) (e : Expr) (result : Prim) : M Var := do
  let x ← first (← rvalue sub e.x)
  let p ← primOf x
  match e.op with
  | .neg =>
    if p.isFloat then operation .neg p result [x]
    else do
      let base ← constant p 0
      operation .sub p result [base, x]
  | .not => operation .eqz p result [x]
  | .bitNot => do
    let ones ← constant p (-1)
    operation .xor p result [x, ones]
  | _ => internalHere ("unknown unary operator " ++ e.op.name)

/-- A conversion slot by slot: a copy where the register stays the same. -/
def lowerConvert (sub : Sub) (e : Expr) (t : ConcreteType) : M (List Var) := do
  let src ← rvalue sub e.x
  let target ← ofLayout t.slots
  if src.length ≠ target.length then
    internalHere ("converting " ++ Text.ofNat src.length ++ " slots to "
      ++ Text.ofNat target.length)
  (src.zip target).mapM fun (v, p) => do
    let source ← primOf v
    let w ← newVar p
    if source.valType = p.valType then emit { op := .copy, dst := [w], args := [v] }
    else emit { op := .convert, dst := [w], args := [v], source := source, storage := p }
    return w

/-- Warn once about a literal that is not in canonical composed form. -/
def checkLiteral (id : ExprId) (e : Expr) : M Unit := do
  if id ∈ (← get).checked then return
  modify fun s => { s with checked := id :: s.checked }
  if !e.str.isComposed then
    report (.warning .stringNotComposed e.span
      ("string literal " ++ e.str.quoted ++ " is not in NFC form")
      [⟨e.span, "its NFC form is " ++ e.str.composed.quoted⟩])

/-- The data segment with some bytes. -/
def dataSegment (bytes : List UInt8) : M Nat := do
  let (i, unit) := (← get).unit.internSegment bytes
  modify fun s => { s with unit := unit }
  return i

/-- A string literal: the address of its bytes, and their number for types of two slots. -/
def lowerString (id : ExprId) (e : Expr) (t : ConcreteType) : M (List Var) := do
  checkLiteral id e
  let segment ← dataSegment e.str.bytes
  match ← ofLayout t.slots with
  | [_] => return [← address .data segment]
  | [_, p] => do
    let base ← address .data segment
    let size ← constant p (Int64.ofNat e.str.size)
    return [base, size]
  | slots =>
    report (.error .unsupported e.span ("string literal cannot initialise " ++ t.name))
    newVars slots

/-- An aggregate: a call of its constructor, or its members assigned one by one. -/
def lowerConstruct (sub : Sub) (e : Expr) (h : Handle) (dst : Option Value) : M Value := do
  let t ← typeOf h
  if t.init ≠ 0 then
    let name ← onStore (TypeStore.memberName h t.init)
    let args ← arguments sub e.args
    let vars ← callFunction name args h
    deliver vars h dst
  else
    if e.args.length ≠ t.members.length then
      internalHere (t.name ++ " takes " ++ Text.ofNat t.members.length ++ " fields, got "
        ++ Text.ofNat e.args.length)
    match t.kind with
    | .struct => do
      let target ←
        match dst with
        | some d => pure d
        | none => do
          let vars ← newVars (← ofLayout t.slots)
          pure (Value.direct h vars)
      for (arg, m) in e.args.zip t.members do
        let place ← selectMember target m.name
        discard (sub arg (some place))
      return target
    | .cls => do
      let pointer ← allocate t.size
      for (arg, m) in e.args.zip t.members do
        let place ← instanceMember pointer m
        discard (sub arg (some place))
      deliver [pointer] h dst
    | _ => internalHere ("cannot construct " ++ t.name)

/-- The number of a global in memory. -/
def globalIndex (id : DeclId) : M Nat :=
  return ((← read).globals.lookup id).getD 0

/-- The variables of a local. -/
def localVars (id : LocalId) : M (List Var) := do
  expect (← read).locals[id.toNat]?

/-- Lower an existing expression; `sub` lowers what it is made of. -/
def exprStep (sub : Sub) (id : ExprId) (e : Expr) (dst : Option Value) : M Value := do
  let h ← resolve e.type
  let t ← typeOf h
  match e.kind with
  | .int => do
    let p ← expect (← ofLayout t.slots).head?
    let v ← constant p e.int
    deliver [v] h dst
  | .float => do
    let p ← expect (← ofLayout t.slots).head?
    let v ← newVar p
    emit { op := .const, dst := [v], storage := p, float := e.float }
    deliver [v] h dst
  | .bool => do
    let v ← constant .bool (if e.bool then 1 else 0)
    deliver [v] h dst
  | .null => do
    let v ← constant .pointer 0
    deliver [v] h dst
  | .string => do
    let vars ← lowerString id e t
    deliver vars h dst
  | .loc => do
    let vars ← localVars e.loc
    deliverValue (.direct h vars) dst
  | .self => do
    let frame ← read
    deliverValue (.direct frame.selfType frame.self) dst
  | .global => do
    let index ← globalIndex e.decl
    deliverValue (.global h index 0) dst
  | .funcRef => do
    let v ← newVar .pointer
    let name ← calleeName e
    modify fun s => { s with unit := (s.unit.internTable name).2 }
    emit { op := .funcRef, dst := [v], callee := name, storage := .pointer }
    deliver [v] h dst
  | .call => do
    let vars ← lowerCall sub e h
    deliver vars h dst
  | .callValue => do
    let vars ← lowerCallValue sub e h
    deliver vars h dst
  | .methodCall => do
    let vars ← lowerMethodCall sub e h
    deliver vars h dst
  | .operator => do
    let vars ← lowerOperator sub e h
    deliver vars h dst
  | .member => do
    let whole ← sub e.x none
    let part ← selectMember whole e.name
    deliverValue part dst
  | .binary => do
    let v ← lowerBinary sub e t
    deliver [v] h dst
  | .unary => do
    let result ← expect (← ofLayout t.slots).head?
    let v ← lowerUnary sub e result
    deliver [v] h dst
  | .convert => do
    let vars ← lowerConvert sub e t
    deliver vars h dst
  | .construct => lowerConstruct sub e h dst
  | .alloc => do
    let size ← ofLayout (← typeOf t.elem).valueSize
    let pointer ← allocate size
    if e.x ≠ 0 then
      discard (sub e.x (some (.relative t.elem pointer 0)))
    deliver [pointer] h dst
  | .deref => do
    let base ← first (← rvalue sub e.x)
    deliverValue (.relative h base 0) dst
  | .unknown _ _ => internalHere ("unknown expression kind " ++ e.kind.name)

/-- Lower an expression tree at most `depth` deep. -/
def lowerWithin : Nat → Sub
  | 0, _, _ => throw (.other .exhausted)
  | depth + 1, id, dst => do
    match (← program).expr? id with
    | none => internalHere ("missing expression " ++ Text.ofNat id.toNat)
    | some e => exprStep (lowerWithin depth) id e dst

/-- Lower an expression. -/
def lowerExpr : Sub := fun id dst => do
  lowerWithin ((← program).exprs.size + 1) id dst

end WasmBackend.Lowering
