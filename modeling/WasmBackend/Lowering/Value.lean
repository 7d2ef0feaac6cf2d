import WasmBackend.Diagnostic.Basic
import WasmBackend.Ir.CodeUnit
import WasmBackend.Trace.Event
import WasmBackend.Types.Store

/-!
# Values during lowering

While a function is lowered, a value is either a row of variables or a place in memory.  This
module has the state of lowering, the primitive steps on it (new variables, new blocks, new
instructions), and reading, writing and member selection on values.
-/

namespace WasmBackend

open Ir (Var BlockId Block BlockKind Instr CodeUnit Signature Zone)

/-- The state of lowering: what all functions share, then the function under construction. -/
structure Lowering where
  store : TypeStore
  bag : Bag := {}
  tracer : Trace.Tracer := {}
  unit : CodeUnit := {}
  /-- The string literals whose form has been checked. -/
  checked : List ExprId := []
  vars : Array Prim := #[]
  blocks : Array Block := #[]
  /-- The block lists under construction, innermost first, each reversed. -/
  nesting : List (List BlockId) := []
  /-- The basic block that takes new instructions. -/
  current : BlockId := 0
  /-- The enclosing loops, innermost first. -/
  loops : List BlockId := []
deriving Inhabited

/-- Why lowering stopped. -/
inductive LoweringFault where
  /-- The layout of a type was used before it was resolved. -/
  | premature (failure : Failure)
  /-- Anything that layouts have no part in. -/
  | other (failure : Failure)
deriving DecidableEq, Repr, Inhabited

/-- The failure of the compilation. -/
def LoweringFault.failure : LoweringFault → Failure
  | premature failure | other failure => failure

/-- What is fixed while one function is lowered. -/
structure Frame where
  /-- The symbol of the function. -/
  name : Text
  /-- The declaration; the entry has none. -/
  function : Option FunctionData := none
  /-- What the generic parameters stand for. -/
  scope : List Handle := []
  /-- The variables of the receiver. -/
  self : List Var := []
  selfType : Handle := 0
  /-- The variables of every local. -/
  locals : Array (List Var) := #[]
  /-- The numbers of the globals in memory. -/
  globals : List (DeclId × Nat) := []
deriving Inhabited

/-- A value: a row of variables, a place behind a pointer, or a place inside a global. -/
inductive Value where
  | direct (type : Handle) (slots : List Var)
  | relative (type : Handle) (base : Var) (offset : UInt32)
  | global (type : Handle) (index : Nat) (offset : UInt32)
deriving DecidableEq, Repr, Inhabited

def Value.type : Value → Handle
  | direct t _ => t
  | relative t _ _ => t
  | global t _ _ => t

namespace Lowering

/-- A step of lowering. -/
abbrev Step := ExceptT LoweringFault (StateM Lowering)

/-- A step of lowering inside a function. -/
abbrev M := ReaderT Frame Step

/-- Run a computation on the store of types. -/
def onStore {α : Type} (x : TypeStore.M α) : M α := fun _ =>
  ExceptT.adapt .other (Stage.zoom Lowering.store (fun store s => { s with store := store }) x)

/-- Stop with a broken invariant. -/
def internal {α : Type} (message : Text) : M α :=
  throw (.other (.internal message))

/-- Stop with a broken invariant of the function. -/
def internalHere {α : Type} (message : Text) : M α := do
  internal ((← read).name ++ ": " ++ message)

/-- The value, or a fault where it is missing. -/
def expect {α : Type} (x : Option α) : M α :=
  match x with
  | some a => pure a
  | none => throw (.other .fault)

/-- What the layout of a type says. -/
def ofLayout {α : Type} (x : Except Failure α) : M α :=
  match x with
  | .ok a => pure a
  | .error e => throw (.premature e)

def report (d : Diagnostic) : M Unit :=
  modify fun s => { s with bag := s.bag.add d }

def program : M Program :=
  return (← get).store.program

def typeOf (h : Handle) : M ConcreteType :=
  onStore (TypeStore.getType h)

/-- The handle of a type expression inside the function. -/
def resolve (t : TypeId) : M Handle := do
  onStore (TypeStore.resolve t (← read).scope)

def slotsOf (h : Handle) : M (List Prim) := do
  ofLayout (← typeOf h).slots

/-- The first variable of a row. -/
def first (vs : List Var) : M Var :=
  expect vs.head?

/-- A new variable. -/
def newVar (p : Prim) : M Var := do
  let v := (← get).vars.size
  modify fun s => { s with vars := s.vars.push p }
  return v

/-- New variables. -/
def newVars (ps : List Prim) : M (List Var) :=
  ps.mapM newVar

/-- The primitive of a variable. -/
def primOf (v : Var) : M Prim := do
  match (← get).vars[v]? with
  | some p => return p
  | none => internalHere ("variable v" ++ Text.ofNat v ++ " was never allocated")

/-- Put an instruction at the end of the current block. -/
def emit (i : Instr) : M Unit :=
  modify fun s =>
    { s with
      blocks := s.blocks.modify (s.current - 1) fun b => { b with instrs := b.instrs ++ [i] } }

/-- A new block at the end of the innermost list. -/
def newBlock (kind : BlockKind) : M BlockId := do
  let id := (← get).blocks.size + 1
  modify fun s =>
    { s with
      blocks := s.blocks.push { kind := kind }
      nesting :=
        match s.nesting with
        | ids :: outer => (id :: ids) :: outer
        | [] => [[id]] }
  return id

/-- Go on in a new basic block of the innermost list. -/
def openBasic : M Unit := do
  let id ← newBlock .basic
  modify fun s => { s with current := id }

/-- Change a block. -/
def updateBlock (id : BlockId) (f : Block → Block) : M Unit :=
  modify fun s => { s with blocks := s.blocks.modify (id - 1) f }

/-- Lower into a list of its own, which starts with a new basic block; gives the list. -/
def nested (x : M Unit) : M (List BlockId) := do
  modify fun s => { s with nesting := [] :: s.nesting }
  openBasic
  x
  let ids := (← get).nesting.headD []
  modify fun s => { s with nesting := s.nesting.tail }
  return ids.reverse

/-- Give a variable an integer constant. -/
def constInto (v : Var) (p : Prim) (n : Int64) : M Unit :=
  if p.isFloat then
    emit { op := .const, dst := [v], storage := p, float := Double.ofInt n.toInt }
  else emit { op := .const, dst := [v], storage := p, imm := n }

/-- A new variable with an integer constant. -/
def constant (p : Prim) (n : Int64) : M Var := do
  let v ← newVar p
  constInto v p n
  return v

/-- The address of a static memory entry. -/
def address (zone : Zone) (index : Nat) : M Var := do
  let v ← newVar .pointer
  emit { op := .addr, dst := [v], zone := zone, index := index, storage := .pointer }
  return v

/-- A new variable with the result of an operation. -/
def operation (op : Ir.Opcode) (storage result : Prim) (args : List Var) : M Var := do
  let v ← newVar result
  emit { op := op, dst := [v], args := args, storage := storage }
  return v

/-- A byte count as an offset. -/
def offset32 (n : Nat) : M UInt32 :=
  if n < 0x100000000 then return n.toUInt32
  else internal ("offset " ++ Text.ofNat n ++ " out of range: out of range")

/-- The pointer and offset of a value in memory; nothing for a row of variables. -/
def place? (v : Value) : M (Option (Var × UInt32)) :=
  match v with
  | .direct _ _ => return none
  | .relative _ base offset => return some (base, offset)
  | .global _ index offset => do
    let base ← address .global index
    return some (base, offset)

/-- The variables that hold a value, loaded from memory if need be. -/
def readValue (v : Value) : M (List Var) := do
  match v with
  | .direct _ slots => return slots
  | _ =>
    let (base, offset) ← expect (← place? v)
    let entries ← ofLayout (← typeOf v.type).entries
    entries.mapM fun e => do
      let dst ← newVar e.prim
      let at32 ← offset32 e.offset
      emit { op := .load, dst := [dst], args := [base], storage := e.prim,
             offset := offset + at32 }
      return dst

/-- Write variables into a value slot by slot. -/
def writeValue (dst : Value) (src : List Var) : M Unit := do
  match dst with
  | .direct _ slots =>
    if slots.length ≠ src.length then
      internalHere ("writing " ++ Text.ofNat src.length ++ " slots into "
        ++ Text.ofNat slots.length)
    for (d, s) in slots.zip src do
      if d ≠ s then emit { op := .copy, dst := [d], args := [s] }
  | _ =>
    let (base, offset) ← expect (← place? dst)
    let entries ← ofLayout (← typeOf dst.type).entries
    if entries.length ≠ src.length then
      internalHere ("storing " ++ Text.ofNat src.length ++ " slots into "
        ++ Text.ofNat entries.length)
    for (e, s) in entries.zip src do
      let at32 ← offset32 e.offset
      emit { op := .store, args := [base, s], storage := e.prim, offset := offset + at32 }

/-- A member of the class instance at a pointer. -/
def instanceMember (pointer : Var) (m : Member) : M Value := do
  return .relative m.type pointer (← offset32 m.offset)

/-- A member of a value: of a struct some of its slots or a place inside its place, of a class
instance a place behind the reference. -/
def selectMember (v : Value) (name : Text) : M Value := do
  let t ← typeOf v.type
  match t.member? name with
  | none => internal (t.name ++ " has no member " ++ name)
  | some m =>
    match t.kind with
    | .cls => do
      let vars ← readValue v
      let pointer ← first vars
      instanceMember pointer m
    | .struct =>
      match v with
      | .direct _ slots => do
        let n ← ofLayout (← typeOf m.type).slotCount
        if m.slotIndex + n ≤ slots.length then
          return .direct m.type ((slots.drop m.slotIndex).take n)
        throw (.other .fault)
      | .relative _ base offset => return .relative m.type base (offset + (← offset32 m.offset))
      | .global _ index offset => return .global m.type index (offset + (← offset32 m.offset))
    | _ => internal ("member access on " ++ t.name)

/-- Put computed variables where they are wanted. -/
def deliver (vars : List Var) (h : Handle) (dst : Option Value) : M Value :=
  match dst with
  | none => return .direct h vars
  | some d => do
    writeValue d vars
    return d

/-- Put a value where it is wanted. -/
def deliverValue (v : Value) (dst : Option Value) : M Value :=
  match dst with
  | none => return v
  | some d => do
    writeValue d (← readValue v)
    return d

end Lowering

end WasmBackend
