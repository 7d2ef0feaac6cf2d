import WasmBackend.Failure
import WasmBackend.Program.Basic

/-!
# Building programs

Steps that put a program together node by node, in place of a checker.  A step that makes a node
gives its number.  Nothing is checked, but a step that names a declaration needs it to exist.
-/

namespace WasmBackend

/-- A step of building a program. -/
abbrev Build := Stage Program

namespace Build

/-! ## Types -/

def typeExpr (t : TypeExpr) : Build TypeId := do
  modify fun p => { p with types := p.types.push t }
  return (← get).types.size.toUInt32

def voidType : Build TypeId := typeExpr {}

def primType (p : Prim) : Build TypeId := typeExpr { kind := .prim, prim := p }

def pointerType (elem : TypeId) : Build TypeId := typeExpr { kind := .pointer, elem := elem }

/-- A generic parameter by its position. -/
def paramType (index : UInt32) : Build TypeId := typeExpr { kind := .param, index := index }

def namedType (decl : DeclId) (args : List TypeId := []) : Build TypeId :=
  typeExpr { kind := .named, decl := decl, args := args }

def functionType (result : TypeId) (params : List TypeId) : Build TypeId :=
  typeExpr { kind := .function, args := params, elem := result }

/-! ## Declarations -/

def decl (d : Decl) : Build DeclId := do
  modify fun p => { p with decls := p.decls.push d }
  return (← get).decls.size.toUInt32

/-- Change a declaration. -/
def updateDecl (id : DeclId) (f : Decl → Option Decl) : Build Unit := do
  let d ← Stage.some! (((← get).decl? id).bind f)
  modify fun p => { p with decls := p.decls.set! (id.toNat - 1) d }

def updateAggregate (id : DeclId) (f : AggregateData → AggregateData) : Build Unit :=
  updateDecl id fun d => d.aggregate.map fun a => { d with aggregate := some (f a) }

def updateFunction (id : DeclId) (f : FunctionData → FunctionData) : Build Unit :=
  updateDecl id fun d => d.function.map fun data => { d with function := some (f data) }

def struct (name : Text) (generics : List Text := []) : Build DeclId :=
  decl { kind := .struct, name := name, generics := generics, aggregate := some {} }

def cls (name : Text) (generics : List Text := []) : Build DeclId :=
  decl { kind := .cls, name := name, generics := generics, aggregate := some {} }

def field (aggregate : DeclId) (name : Text) (t : TypeId) : Build Unit :=
  updateAggregate aggregate fun a =>
    { a with fields := a.fields ++ [{ name := name, type := t }] }

def function (name : Text) (result : TypeId) (generics : List Text := []) : Build DeclId :=
  decl
    { name := name, generics := generics,
      function := some { result := result, hasBody := true } }

/-- A function that belongs to an aggregate. -/
def memberFunction (owner : DeclId) (kind : FunctionKind) (name : Text) (op : Operator)
    (result : TypeId) (attach : DeclId → AggregateData → AggregateData) : Build DeclId := do
  let data : FunctionData :=
    { kind := kind, owner := owner, op := op, result := result, hasBody := true }
  let id ← decl { name := name, function := some data }
  updateAggregate owner (attach id)
  return id

def method (owner : DeclId) (name : Text) (result : TypeId) : Build DeclId :=
  memberFunction owner .method name .none result fun id a =>
    { a with methods := a.methods ++ [id] }

def operatorFunction (owner : DeclId) (op : Operator) (result : TypeId) : Build DeclId :=
  memberFunction owner .operator op.name op result fun id a =>
    { a with operators := a.operators ++ [id] }

def constructor (owner : DeclId) : Build DeclId :=
  memberFunction owner .constructor "init" .none 0 fun id a => { a with init := id }

def global (name : Text) (t : TypeId) (init : ExprId) (mutable : Bool) : Build DeclId :=
  decl { kind := .global, name := name, global := some ⟨t, init, mutable⟩ }

def decorate (id : DeclId) (decorators : List Decorator) : Build Unit :=
  updateDecl id fun d => some { d with decorators := d.decorators ++ decorators }

/-- Take a function's body away. -/
def bodiless (id : DeclId) : Build Unit :=
  updateFunction id fun f => { f with hasBody := false }

/-- Compile a function in any case. -/
def root (id : DeclId) : Build Unit :=
  modify fun p => { p with roots := p.roots ++ [id] }

/-- Add a local to a function, or to the main statements for 0. -/
def addLocal (fn : DeclId) (l : Local) : Build LocalId := do
  if fn = 0 then modify fun p => { p with mainLocals := p.mainLocals ++ [l] }
  else updateFunction fn fun f => { f with locals := f.locals ++ [l] }
  return (((← get).localsOf fn).length - 1).toUInt32

def param (fn : DeclId) (name : Text) (t : TypeId) : Build LocalId := do
  let id ← addLocal fn { name := name, type := t, kind := .param }
  updateFunction fn fun f => { f with params := f.params ++ [id] }
  return id

/-- A binding of a function, or of the main statements for 0. -/
def binding (fn : DeclId) (name : Text) (t : TypeId) (mutable : Bool) : Build LocalId :=
  addLocal fn { name := name, type := t, kind := if mutable then .mutable else .fixed }

def body (fn : DeclId) (stmts : List StmtId) : Build Unit :=
  updateFunction fn fun f => { f with body := f.body ++ stmts }

def mainBody (stmts : List StmtId) : Build Unit :=
  modify fun p => { p with main := p.main ++ stmts }

/-! ## Statements -/

def stmt (s : Stmt) : Build StmtId := do
  modify fun p => { p with stmts := p.stmts.push s }
  return (← get).stmts.size.toUInt32

def exprStmt (e : ExprId) : Build StmtId := stmt { kind := .expr, expr := e }

def bind (l : LocalId) (init : ExprId) : Build StmtId :=
  stmt { kind := .bind, loc := l, expr := init }

def assign (target value : ExprId) : Build StmtId :=
  stmt { kind := .assign, target := target, expr := value }

def cond (test : ExprId) (body otherwise : List StmtId) : Build StmtId :=
  stmt { kind := .cond, expr := test, body := body, otherwise := otherwise }

def loop (test : ExprId) (body : List StmtId) : Build StmtId :=
  stmt { kind := .loop, expr := test, body := body }

def exit : Build StmtId := stmt { kind := .exit }

def next : Build StmtId := stmt { kind := .next }

/-- A return; 0 for no value. -/
def ret (value : ExprId) : Build StmtId := stmt { kind := .ret, expr := value }

/-! ## Expressions -/

def expr (e : Expr) : Build ExprId := do
  modify fun p => { p with exprs := p.exprs.push e }
  return (← get).exprs.size.toUInt32

def int (t : TypeId) (n : Int64) : Build ExprId := expr { kind := .int, type := t, int := n }

def float (t : TypeId) (d : Double) : Build ExprId := expr { kind := .float, type := t, float := d }

def bool (t : TypeId) (b : Bool) : Build ExprId := expr { kind := .bool, type := t, bool := b }

def string (t : TypeId) (s : Text) : Build ExprId := expr { kind := .string, type := t, str := s }

def null (t : TypeId) : Build ExprId := expr { kind := .null, type := t }

def self (t : TypeId) : Build ExprId := expr { kind := .self, type := t }

/-- A local of a function, or of the main statements for 0. -/
def ref (fn : DeclId) (l : LocalId) : Build ExprId := do
  let found ← Stage.some! ((← get).localsOf fn)[l.toNat]?
  expr { kind := .loc, type := found.type, loc := l }

def globalRef (id : DeclId) : Build ExprId := do
  let g ← Stage.some! (((← get).decl? id).bind Decl.global)
  expr { kind := .global, type := g.type, decl := id }

def funcRef (t : TypeId) (fn : DeclId) (typeArgs : List TypeId := []) : Build ExprId :=
  expr { kind := .funcRef, type := t, decl := fn, typeArgs := typeArgs }

def call (t : TypeId) (fn : DeclId) (args : List ExprId) (typeArgs : List TypeId := []) :
    Build ExprId :=
  expr { kind := .call, type := t, decl := fn, typeArgs := typeArgs, args := args }

def callValue (t : TypeId) (fn : ExprId) (args : List ExprId) : Build ExprId :=
  expr { kind := .callValue, type := t, x := fn, args := args }

def methodCall (t : TypeId) (receiver : ExprId) (name : Text) (args : List ExprId) : Build ExprId :=
  expr { kind := .methodCall, type := t, x := receiver, name := name, args := args }

def member (t : TypeId) (x : ExprId) (name : Text) : Build ExprId :=
  expr { kind := .member, type := t, x := x, name := name }

def binary (t : TypeId) (op : Operator) (x y : ExprId) : Build ExprId :=
  expr { kind := .binary, type := t, op := op, x := x, y := y }

/-- An operator that the type of `x` declares. -/
def operatorCall (t : TypeId) (op : Operator) (x y : ExprId) : Build ExprId :=
  expr { kind := .operator, type := t, op := op, x := x, y := y }

def unary (t : TypeId) (op : Operator) (x : ExprId) : Build ExprId :=
  expr { kind := .unary, type := t, op := op, x := x }

def convert (t : TypeId) (x : ExprId) : Build ExprId :=
  expr { kind := .convert, type := t, x := x }

def construct (t : TypeId) (args : List ExprId) : Build ExprId :=
  expr { kind := .construct, type := t, args := args }

/-- A new cell for the pointed-to type; `init` may be 0. -/
def alloc (t : TypeId) (init : ExprId) : Build ExprId :=
  expr { kind := .alloc, type := t, x := init }

def deref (t : TypeId) (x : ExprId) : Build ExprId :=
  expr { kind := .deref, type := t, x := x }

/-- Say where an expression stands in the source. -/
def atSpan (e : ExprId) (span : Span) : Build ExprId := do
  let node ← Stage.some! ((← get).expr? e)
  modify fun p => { p with exprs := p.exprs.set! (e.toNat - 1) { node with span := span } }
  return e

/-- The program that steps build from nothing. -/
def program (steps : Build Unit) : Program :=
  (steps.runFrom {}).2

end Build

end WasmBackend
