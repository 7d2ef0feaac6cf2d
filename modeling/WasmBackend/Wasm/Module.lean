import WasmBackend.Prim
import WasmBackend.Text
import WasmBackend.Wasm.Instruction

/-!
# Modules

A module as data, and its binary form: a header and numbered sections in ascending order, each with
its length.  Imports, elements and data have a section only when there are any.
-/

namespace WasmBackend.Wasm

structure FuncType where
  params : List ValType := []
  results : List ValType := []
deriving DecidableEq, Repr, Inhabited

/-- What function types are told apart by: the codes of the parameters, a bar, and the codes of the
results.  The bar is also the code of the wide float. -/
def FuncType.key (t : FuncType) : List UInt8 :=
  t.params.map ValType.code ++ 0x7C :: t.results.map ValType.code

/-- The position of the type with the same key among some, to which it is added when there is
none. -/
def FuncType.intern (t : FuncType) (types : List FuncType) : Nat × List FuncType :=
  match types.findIdx? fun u => u.key = t.key with
  | some i => (i, types)
  | none => (types.length, types ++ [t])

/-- An imported function. -/
structure ImportedFunction where
  source : Text
  name : Text
  type : Nat
deriving DecidableEq, Inhabited

/-- A 32-bit global. -/
structure GlobalCell where
  mutable : Bool
  init : UInt32
deriving DecidableEq, Repr, Inhabited

inductive ExportKind where
  | function
  | memory
deriving DecidableEq, Repr, Inhabited

def ExportKind.code : ExportKind → UInt8
  | function => 0x00
  | memory => 0x02

structure Export where
  name : Text
  kind : ExportKind
  index : Nat
deriving DecidableEq, Inhabited

/-- The code of a function with the types of its locals behind the parameters. -/
structure Body where
  locals : List ValType := []
  code : List Instruction := []
deriving Inhabited

/-- Bytes that memory starts with at an address. -/
structure DataSegment where
  address : UInt32
  bytes : List UInt8
deriving DecidableEq, Inhabited

structure Module where
  types : List FuncType
  imports : List ImportedFunction
  /-- The type of every function of the module's own. -/
  functions : List Nat
  /-- The fixed size of the function table. -/
  tableSize : Nat
  minPages : UInt32
  maxPages : UInt32
  globals : List GlobalCell
  exports : List Export
  /-- The functions the table holds from entry 0 on. -/
  elements : List Nat
  bodies : List Body
  data : List DataSegment
deriving Inhabited

/-- A number of items, then the items. -/
def encodeVector {α : Type} (encode : α → List UInt8) (xs : List α) : List UInt8 :=
  Leb128.unsigned xs.length ++ xs.flatMap encode

/-- Bytes behind their number. -/
def encodeBytes (bytes : List UInt8) : List UInt8 :=
  Leb128.unsigned bytes.length ++ bytes

def encodeName (name : Text) : List UInt8 :=
  encodeBytes name.bytes

/-- A section with its number and length. -/
def encodeSection (id : UInt8) (content : List UInt8) : List UInt8 :=
  id :: encodeBytes content

/-- A section that is left out when there is nothing in it. -/
def encodeSectionUnless (empty : Bool) (id : UInt8) (content : List UInt8) : List UInt8 :=
  if empty then [] else encodeSection id content

def encodeValTypes (ts : List ValType) : List UInt8 :=
  encodeVector (fun t => [t.code]) ts

def FuncType.encode (t : FuncType) : List UInt8 :=
  0x60 :: (encodeValTypes t.params ++ encodeValTypes t.results)

def ImportedFunction.encode (i : ImportedFunction) : List UInt8 :=
  encodeName i.source ++ encodeName i.name ++ 0x00 :: Leb128.unsigned i.type

/-- The address a segment or global starts with, as a constant expression. -/
def encodeAddress (a : UInt32) : List UInt8 :=
  (Instruction.i32Const a).encode ++ [endCode]

def GlobalCell.encode (g : GlobalCell) : List UInt8 :=
  ValType.i32.code :: (if g.mutable then 0x01 else 0x00) :: encodeAddress g.init

def Export.encode (e : Export) : List UInt8 :=
  encodeName e.name ++ e.kind.code :: Leb128.unsigned e.index

/-- Runs of equal types with their lengths. -/
def localGroups : List ValType → List (Nat × ValType)
  | [] => []
  | t :: rest =>
    match localGroups rest with
    | (n, u) :: groups => if t = u then (n + 1, u) :: groups else (1, t) :: (n, u) :: groups
    | [] => [(1, t)]

def Body.encode (b : Body) : List UInt8 :=
  encodeBytes
    (encodeVector (fun (n, t) => Leb128.unsigned n ++ [t.code]) (localGroups b.locals)
      ++ encodeInstructions b.code ++ [endCode])

def DataSegment.encode (d : DataSegment) : List UInt8 :=
  0x00 :: (encodeAddress d.address ++ encodeBytes d.bytes)

namespace Module

/-- The magic number and the version of the format. -/
def header : List UInt8 :=
  [0x00, 0x61, 0x73, 0x6D, 0x01, 0x00, 0x00, 0x00]

/-- The one table, of functions, with equal least and greatest size. -/
def encodeTable (m : Module) : List UInt8 :=
  0x01 :: 0x70 :: 0x01 :: (Leb128.unsigned m.tableSize ++ Leb128.unsigned m.tableSize)

/-- The one memory. -/
def encodeMemory (m : Module) : List UInt8 :=
  0x01 :: 0x01 :: (Leb128.word m.minPages ++ Leb128.word m.maxPages)

/-- The one element segment, which fills the table from its start. -/
def encodeElements (m : Module) : List UInt8 :=
  0x01 :: 0x00 :: (encodeAddress 0 ++ encodeVector Leb128.unsigned m.elements)

/-- The bytes of a module. -/
def encode (m : Module) : List UInt8 :=
  header
    ++ encodeSection 1 (encodeVector FuncType.encode m.types)
    ++ encodeSectionUnless m.imports.isEmpty 2 (encodeVector ImportedFunction.encode m.imports)
    ++ encodeSection 3 (encodeVector Leb128.unsigned m.functions)
    ++ encodeSection 4 m.encodeTable
    ++ encodeSection 5 m.encodeMemory
    ++ encodeSection 6 (encodeVector GlobalCell.encode m.globals)
    ++ encodeSection 7 (encodeVector Export.encode m.exports)
    ++ encodeSectionUnless m.elements.isEmpty 9 m.encodeElements
    ++ encodeSection 10 (encodeVector Body.encode m.bodies)
    ++ encodeSectionUnless m.data.isEmpty 11 (encodeVector DataSegment.encode m.data)

end Module

end WasmBackend.Wasm
