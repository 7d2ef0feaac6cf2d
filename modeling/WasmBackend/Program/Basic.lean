import WasmBackend.Double.Basic
import WasmBackend.Prim
import WasmBackend.Program.Kinds
import WasmBackend.Source

/-!
# Checked programs

A program is a set of arenas: declarations, statements, expressions and type expressions refer to
one another by number.  Numbers start at 1 and 0 means "none"; locals of a function are numbered
from 0.  Every node keeps all fields whatever its kind, as the checker wrote them.
-/

namespace WasmBackend

abbrev DeclId := UInt32
abbrev StmtId := UInt32
abbrev ExprId := UInt32
abbrev TypeId := UInt32
/-- The position of a local in its function. -/
abbrev LocalId := UInt32

/-- A request attached to a declaration, such as exporting it under a name. -/
structure Decorator where
  kind : DecoratorKind
  argument : Text := ""
deriving DecidableEq, Inhabited

structure Local where
  name : Text
  type : TypeId
  kind : LocalKind
  span : Span := {}
deriving DecidableEq, Inhabited

structure FunctionData where
  kind : FunctionKind := .plain
  /-- The aggregate that declares a method, operator or constructor. -/
  owner : DeclId := 0
  op : Operator := .none
  params : List LocalId := []
  result : TypeId := 0
  locals : List Local := []
  body : List StmtId := []
  /-- False for foreign and native functions. -/
  hasBody : Bool := false
deriving DecidableEq, Inhabited

structure Field where
  name : Text
  type : TypeId
  span : Span := {}
deriving DecidableEq, Inhabited

structure AggregateData where
  fields : List Field := []
  methods : List DeclId := []
  operators : List DeclId := []
  /-- The user's constructor, or 0. -/
  init : DeclId := 0
deriving DecidableEq, Inhabited

structure GlobalData where
  type : TypeId := 0
  /-- The initial value, or 0. -/
  init : ExprId := 0
  mutable : Bool := false
deriving DecidableEq, Inhabited

structure Decl where
  kind : DeclKind := .function
  name : Text := ""
  span : Span := {}
  generics : List Text := []
  decorators : List Decorator := []
  function : Option FunctionData := none
  aggregate : Option AggregateData := none
  global : Option GlobalData := none
deriving DecidableEq, Inhabited

structure Stmt where
  kind : StmtKind := .expr
  span : Span := {}
  expr : ExprId := 0
  /-- What an assignment writes to. -/
  target : ExprId := 0
  loc : LocalId := 0
  body : List StmtId := []
  otherwise : List StmtId := []
deriving DecidableEq, Inhabited

structure Expr where
  kind : ExprKind := .int
  span : Span := {}
  type : TypeId := 0
  int : Int64 := 0
  float : Double := .zero
  bool : Bool := false
  str : Text := ""
  loc : LocalId := 0
  decl : DeclId := 0
  typeArgs : List TypeId := []
  x : ExprId := 0
  y : ExprId := 0
  args : List ExprId := []
  name : Text := ""
  op : Operator := .none
deriving DecidableEq, Inhabited

structure TypeExpr where
  kind : TypeExprKind := .void
  prim : Prim := .none
  decl : DeclId := 0
  /-- Arguments of an aggregate, or parameter types of a function. -/
  args : List TypeId := []
  /-- The number of a generic parameter. -/
  index : UInt32 := 0
  /-- The pointed-to type, or the result of a function. -/
  elem : TypeId := 0
deriving DecidableEq, Inhabited

/-- A fully checked compilation input. -/
structure Program where
  files : FileTable := {}
  decls : Array Decl := #[]
  stmts : Array Stmt := #[]
  exprs : Array Expr := #[]
  types : Array TypeExpr := #[]
  /-- Functions compiled even when nothing refers to them. -/
  roots : List DeclId := []
  /-- The statements that the entry runs. -/
  main : List StmtId := []
  mainLocals : List Local := []
deriving DecidableEq, Inhabited

namespace Decl

/-- The first decorator of a kind. -/
def decorator? (d : Decl) (k : DecoratorKind) : Option Decorator :=
  d.decorators.find? fun dec => dec.kind = k

def has (d : Decl) (k : DecoratorKind) : Bool :=
  (d.decorator? k).isSome

def isGeneric (d : Decl) : Bool :=
  !d.generics.isEmpty

def isAggregate (d : Decl) : Bool :=
  d.kind = .struct || d.kind = .cls

/-- The position of the named field. -/
def fieldIndex? (d : Decl) (name : Text) : Option Nat :=
  match d.aggregate with
  | some a => a.fields.findIdx? fun f => f.name = name
  | none => none

/-- The argument of the first decorator of a kind, or the declared name when it has none. -/
def decoratedName (d : Decl) (k : DecoratorKind) : Text :=
  match d.decorator? k with
  | some dec => if dec.argument = "" then d.name else dec.argument
  | none => d.name

/-- The name a function is exported under. -/
def exportName (d : Decl) : Text := d.decoratedName .exported

/-- The intrinsic a native function stands for. -/
def nativeName (d : Decl) : Text := d.decoratedName .native

/-- The host symbol a foreign function stands for. -/
def foreignSymbol (d : Decl) : Text := d.decoratedName .foreign

end Decl

/-- The node with a number counted from 1. -/
def node? {α : Type} (arena : Array α) (id : UInt32) : Option α :=
  if id = 0 then none else arena[id.toNat - 1]?

namespace Program

def decl? (p : Program) (id : DeclId) : Option Decl := node? p.decls id

def stmt? (p : Program) (id : StmtId) : Option Stmt := node? p.stmts id

def expr? (p : Program) (id : ExprId) : Option Expr := node? p.exprs id

def typeExpr? (p : Program) (id : TypeId) : Option TypeExpr := node? p.types id

/-- The declarations with their numbers, in source order. -/
def numberedDecls (p : Program) : List (DeclId × Decl) :=
  p.decls.toList.zipIdx.map fun (d, i) => ((i + 1).toUInt32, d)

/-- The locals of a function; of the main statements for 0. -/
def localsOf (p : Program) (id : DeclId) : List Local :=
  if id = 0 then p.mainLocals
  else
    match p.decl? id with
    | some { function := some f, .. } => f.locals
    | _ => []

end Program

end WasmBackend
