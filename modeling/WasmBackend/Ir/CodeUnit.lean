import WasmBackend.Ir.Function

/-!
# Units

A unit is everything lowering makes of a program: imported and lowered functions, string data,
globals, scratch slots for multi-slot results, and the table of functions used as values.  Data,
scratch slots and table entries are shared by content.
-/

namespace WasmBackend.Ir

/-- A function that the host provides. -/
structure Import where
  name : Text
  symbol : Text
  sig : Signature := {}
  inTable : Bool := false
deriving DecidableEq, Inhabited

/-- A global of the source, kept in linear memory. -/
structure GlobalVar where
  name : Text
  size : Int := 0
  mutable : Bool := false
deriving DecidableEq, Inhabited

/-- A memory cell that carries one slot of a multi-slot result. -/
structure Scratch where
  position : Int
  prim : Prim
deriving DecidableEq, Inhabited

/-- Everything lowered from one program. -/
structure CodeUnit where
  imports : List Import := []
  funcs : List Function := []
  segments : List (List UInt8) := []
  globals : List GlobalVar := []
  scratch : List Scratch := []
  /-- The functions of the table in order. -/
  table : List Text := []
  entry : Text := ""
  entryExport : Text := ""
deriving DecidableEq, Inhabited

/-- The host module that imports come from. -/
def importModule : Text := "env"

/-- The global that holds the first heap address. -/
def heapBaseGlobal : Text := "__heap_base"

/-- The global that holds the next free heap address. -/
def heapPointerGlobal : Text := "__heap_ptr"

/-- The position of a value in a list, which is extended by it when it is missing. -/
def intern {α : Type} [DecidableEq α] (x : α) (xs : List α) : Nat × List α :=
  match xs.findIdx? fun y => y = x with
  | some i => (i, xs)
  | none => (xs.length, xs ++ [x])

namespace CodeUnit

/-- The data segment with exactly these bytes. -/
def internSegment (u : CodeUnit) (bytes : List UInt8) : Nat × CodeUnit :=
  let (i, segments) := intern bytes u.segments
  (i, { u with segments := segments })

/-- The scratch slot of a position and primitive. -/
def internScratch (u : CodeUnit) (position : Int) (prim : Prim) : Nat × CodeUnit :=
  let (i, scratch) := intern ⟨position, prim⟩ u.scratch
  (i, { u with scratch := scratch })

/-- The table entry of a function. -/
def internTable (u : CodeUnit) (name : Text) : Nat × CodeUnit :=
  let (i, table) := intern name u.table
  (i, { u with table := table })

def func? (u : CodeUnit) (name : Text) : Option Function :=
  u.funcs.find? fun f => f.name = name

def import? (u : CodeUnit) (name : Text) : Option Import :=
  u.imports.find? fun i => i.name = name

end CodeUnit

end WasmBackend.Ir
