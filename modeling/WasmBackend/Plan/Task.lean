import WasmBackend.Types.Store

/-!
# Tasks

A task is one thing to compile: a function with its generic arguments, a member function of a
concrete type, the layout of a type, or the program's entry.
-/

namespace WasmBackend

/-- What a task compiles. -/
inductive TaskKind where
  | function
  | layout
  | constructor
  | operator
  | method
  | entry
deriving DecidableEq, Repr, Inhabited

namespace TaskKind

def name : TaskKind → String
  | function => "func"
  | layout => "layout"
  | constructor => "constructor"
  | operator => "operator"
  | method => "method"
  | entry => "entry"

/-- The name of the kind with a number, or a mark for a number without one. -/
def nameOfCode (n : Nat) : String :=
  (([function, layout, constructor, operator, method, entry].map name)[n]?).getD "task?"

end TaskKind

structure Task where
  kind : TaskKind
  /-- The function; 0 for layouts and the entry. -/
  decl : DeclId := 0
  /-- The type of a layout, or the type a member function belongs to. -/
  owner : Handle := 0
  /-- The function's own generic arguments. -/
  args : List Handle := []
  /-- The symbol it is emitted under. -/
  name : Text := ""
  /-- Whether it is referred to as a value. -/
  indirect : Bool := false
deriving DecidableEq, Inhabited

namespace Task

/-- Whether the task gives a function body. -/
def emits (t : Task) : Bool :=
  t.kind ≠ .layout

/-- What makes two tasks the same. -/
def identity (t : Task) : TaskKind × DeclId × Handle × List Handle :=
  (t.kind, t.decl, t.owner, t.args)

/-- The generic arguments visible inside a task. -/
def scope (store : TypeStore) (t : Task) : List Handle :=
  match t.kind with
  | .method | .operator | .constructor => store.argsOf t.owner
  | .function | .layout | .entry => t.args

/-- The line of a task in the text of a plan. -/
def render (t : Task) : Text :=
  t.kind.name ++ " " ++ t.name ++ (if t.indirect then " indirect" else "") ++ "\n"

end Task

/-- The name of the entry function. -/
def entryFunction : Text := "__start"

/-- The export name of the entry when none is asked for. -/
def defaultEntryExport : Text := "_start"

/-- The name of the allocator. -/
def allocFunction : Text := "__alloc"

/-- What a program needs compiled, in discovery order. -/
structure Plan where
  tasks : List Task
  /-- The aggregates to lay out, in registration order. -/
  layouts : List Handle
  /-- Whether some task allocates on the heap. -/
  needsAlloc : Bool
  /-- Export names and the functions exported under them. -/
  exports : List (Text × DeclId)
deriving Inhabited

/-- One line per task. -/
def Plan.render (p : Plan) : Text :=
  Text.concat (p.tasks.map Task.render)

end WasmBackend
