import WasmBackend.Program.Basic
import WasmBackend.Storage.MessagePack

/-!
# Stored programs

A program file holds a header, which names the format and its version, and the program.  Reading
tells apart a file that is no program file, one of another version, and one that is broken.
-/

namespace WasmBackend

open Storage

instance : Stored DeclKind := storedByCode DeclKind.code DeclKind.ofCode

instance : Stored DecoratorKind := storedByCode DecoratorKind.code DecoratorKind.ofCode

instance : Stored FunctionKind := storedByCode FunctionKind.code FunctionKind.ofCode

instance : Stored LocalKind := storedByCode LocalKind.code LocalKind.ofCode

instance : Stored StmtKind := storedByCode StmtKind.code StmtKind.ofCode

instance : Stored ExprKind := storedByCode ExprKind.code ExprKind.ofCode

instance : Stored TypeExprKind := storedByCode TypeExprKind.code TypeExprKind.ofCode

instance : Stored Operator := storedByCode Operator.code Operator.ofCode

instance : Stored Prim := storedByCode Prim.code Prim.ofCode

instance : Stored Span := storedRecord {}
  [fixedColumn "f" Span.file fun v s => { s with file := v },
    fixedColumn "s" Span.start fun v s => { s with start := v },
    fixedColumn "e" Span.stop fun v s => { s with stop := v }]

instance : Stored FileTable := storedRecord {}
  [fixedColumn "paths" FileTable.paths fun v s => { s with paths := v }]

instance : Stored Decorator := storedRecord ⟨.ofCode 0, ""⟩
  [fixedColumn "k" Decorator.kind fun v s => { s with kind := v },
    column "a" Decorator.argument fun v s => { s with argument := v }]

instance : Stored Local := storedRecord ⟨"", 0, .ofCode 0, {}⟩
  [fixedColumn "n" Local.name fun v s => { s with name := v },
    fixedColumn "t" Local.type fun v s => { s with type := v },
    fixedColumn "k" Local.kind fun v s => { s with kind := v },
    fixedColumn "s" Local.span fun v s => { s with span := v }]

instance : Stored Field := storedRecord ⟨"", 0, {}⟩
  [fixedColumn "n" Field.name fun v s => { s with name := v },
    fixedColumn "t" Field.type fun v s => { s with type := v },
    fixedColumn "s" Field.span fun v s => { s with span := v }]

instance : Stored (Option FunctionData) := storedOptional {}
  [fixedColumn "k" FunctionData.kind fun v s => { s with kind := v },
    column "o" FunctionData.owner fun v s => { s with owner := v },
    column "op" FunctionData.op fun v s => { s with op := v },
    column "p" FunctionData.params fun v s => { s with params := v },
    column "r" FunctionData.result fun v s => { s with result := v },
    column "l" FunctionData.locals fun v s => { s with locals := v },
    column "b" FunctionData.body fun v s => { s with body := v },
    fixedColumn "hb" FunctionData.hasBody fun v s => { s with hasBody := v }]

instance : Stored (Option AggregateData) := storedOptional {}
  [column "f" AggregateData.fields fun v s => { s with fields := v },
    column "m" AggregateData.methods fun v s => { s with methods := v },
    column "o" AggregateData.operators fun v s => { s with operators := v },
    column "i" AggregateData.init fun v s => { s with init := v }]

instance : Stored (Option GlobalData) := storedOptional {}
  [fixedColumn "t" GlobalData.type fun v s => { s with type := v },
    column "i" GlobalData.init fun v s => { s with init := v },
    fixedColumn "m" GlobalData.mutable fun v s => { s with mutable := v }]

instance : Stored Decl := storedRecord {}
  [fixedColumn "k" Decl.kind fun v s => { s with kind := v },
    fixedColumn "n" Decl.name fun v s => { s with name := v },
    fixedColumn "s" Decl.span fun v s => { s with span := v },
    column "g" Decl.generics fun v s => { s with generics := v },
    column "dec" Decl.decorators fun v s => { s with decorators := v },
    column "fn" Decl.function fun v s => { s with function := v },
    column "agg" Decl.aggregate fun v s => { s with aggregate := v },
    column "gl" Decl.global fun v s => { s with global := v }]

instance : Stored Stmt := storedRecord {}
  [fixedColumn "k" Stmt.kind fun v s => { s with kind := v },
    fixedColumn "s" Stmt.span fun v s => { s with span := v },
    column "e" Stmt.expr fun v s => { s with expr := v },
    column "t" Stmt.target fun v s => { s with target := v },
    column "l" Stmt.loc fun v s => { s with loc := v },
    column "th" Stmt.body fun v s => { s with body := v },
    column "el" Stmt.otherwise fun v s => { s with otherwise := v }]

instance : Stored Expr := storedRecord {}
  [fixedColumn "k" Expr.kind fun v s => { s with kind := v },
    fixedColumn "s" Expr.span fun v s => { s with span := v },
    fixedColumn "t" Expr.type fun v s => { s with type := v },
    column "i" Expr.int fun v s => { s with int := v },
    column "f" Expr.float fun v s => { s with float := v },
    column "b" Expr.bool fun v s => { s with bool := v },
    column "str" Expr.str fun v s => { s with str := v },
    column "l" Expr.loc fun v s => { s with loc := v },
    column "d" Expr.decl fun v s => { s with decl := v },
    column "ta" Expr.typeArgs fun v s => { s with typeArgs := v },
    column "x" Expr.x fun v s => { s with x := v },
    column "y" Expr.y fun v s => { s with y := v },
    column "a" Expr.args fun v s => { s with args := v },
    column "n" Expr.name fun v s => { s with name := v },
    column "op" Expr.op fun v s => { s with op := v }]

instance : Stored TypeExpr := storedRecord {}
  [fixedColumn "k" TypeExpr.kind fun v s => { s with kind := v },
    column "p" TypeExpr.prim fun v s => { s with prim := v },
    column "d" TypeExpr.decl fun v s => { s with decl := v },
    column "a" TypeExpr.args fun v s => { s with args := v },
    column "i" TypeExpr.index fun v s => { s with index := v },
    column "e" TypeExpr.elem fun v s => { s with elem := v }]

/-- An arena is stored as a record of its nodes. -/
instance {α : Type} [Stored α] : Stored (Array α) := storedRecord #[]
  [fixedColumn "items" Array.toList fun v _ => v.toArray]

instance : Stored Program := storedRecord {}
  [fixedColumn "files" Program.files fun v s => { s with files := v },
    fixedColumn "decls" Program.decls fun v s => { s with decls := v },
    fixedColumn "stmts" Program.stmts fun v s => { s with stmts := v },
    fixedColumn "exprs" Program.exprs fun v s => { s with exprs := v },
    fixedColumn "types" Program.types fun v s => { s with types := v },
    column "roots" Program.roots fun v s => { s with roots := v },
    column "main" Program.main fun v s => { s with main := v },
    column "mainLocals" Program.mainLocals fun v s => { s with mainLocals := v }]

/-- What a program file starts with. -/
structure FileHeader where
  magic : Text := ""
  schema : UInt16 := 0
deriving DecidableEq, Inhabited

instance : Stored FileHeader := storedRecord {}
  [fixedColumn "magic" FileHeader.magic fun v s => { s with magic := v },
    fixedColumn "schema" FileHeader.schema fun v s => { s with schema := v }]

/-- The header of the files written here. -/
def FileHeader.current : FileHeader := ⟨"KAST", 1⟩

/-- Why a file is not read as a program. -/
inductive ProgramFileError where
  | brokenHeader
  | badMagic
  | badSchema (found : UInt16)
  | brokenProgram
deriving DecidableEq, Repr

def ProgramFileError.message : ProgramFileError → Text
  | brokenHeader => "ast: decode header"
  | badMagic => "ast: not a keel typed AST"
  | badSchema found =>
    "ast: schema " ++ Text.ofNat found.toNat ++ ", want "
      ++ Text.ofNat FileHeader.current.schema.toNat
  | brokenProgram => "ast: decode program"

namespace Program

/-- The bytes of a program file. -/
def encode (p : Program) : List UInt8 :=
  MessagePack.encode FileHeader.current ++ MessagePack.encode p

/-- The program in a file; what follows it is ignored. -/
def decode (bytes : List UInt8) : Except ProgramFileError Program :=
  match MessagePack.decode FileHeader bytes with
  | none => .error .brokenHeader
  | some (header, rest) =>
    if header.magic ≠ FileHeader.current.magic then .error .badMagic
    else if header.schema ≠ FileHeader.current.schema then .error (.badSchema header.schema)
    else
      match MessagePack.decode Program rest with
      | none => .error .brokenProgram
      | some (p, _) => .ok p

end Program

end WasmBackend
