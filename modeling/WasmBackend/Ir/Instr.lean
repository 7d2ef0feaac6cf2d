import WasmBackend.Double.Basic
import WasmBackend.Prim
import WasmBackend.Text

/-!
# Instructions

Functions are lowered to instructions over numbered variables.  An instruction keeps all fields
whatever its opcode; opcodes and memory zones are bytes, and bytes that name nothing are kept as
they are.
-/

namespace WasmBackend.Ir

/-- A variable of a function. -/
abbrev Var := Nat

/-- A block of a function, numbered from 1; 0 means none. -/
abbrev BlockId := Nat

/-- What an instruction does. -/
inductive Opcode where
  /-- The result is a constant. -/
  | const
  /-- The results are the arguments. -/
  | copy
  | add
  | sub
  | mul
  | div
  | rem
  | and
  | or
  | xor
  | shl
  | shr
  | eq
  | ne
  | lt
  | le
  | gt
  | ge
  | neg
  /-- The result tells whether the argument is zero. -/
  | eqz
  /-- The argument converted between primitives. -/
  | convert
  /-- The value at an address. -/
  | load
  /-- Writes a value to an address. -/
  | store
  | call
  /-- A call through the table; the last argument is the index. -/
  | callIndirect
  /-- The table index of a function. -/
  | funcRef
  /-- The address of a byte of a static memory entry. -/
  | addr
  /-- The first address of the heap. -/
  | heapBase
  | globalGet
  | globalSet
  | ret
  /-- Leaves an enclosing loop or breakable block. -/
  | exit
  /-- Goes back to the head of an enclosing loop. -/
  | next
  /-- Leaves when the argument is not zero. -/
  | exitIf
  /-- An intrinsic named by the callee. -/
  | native
  | unreachable
  /-- Merges the values that arrive over different edges; emits no code. -/
  | phi
  | unknown (code : UInt8) (outside : 37 ≤ code)
deriving DecidableEq, Repr, Inhabited

namespace Opcode

/-- The known kinds in code order. -/
def known : List Opcode :=
  [const, copy, add, sub, mul, div, rem, and, or, xor, shl, shr, eq, ne, lt, le, gt, ge, neg,
    eqz, convert, load, store, call, callIndirect, funcRef, addr, heapBase, globalGet,
    globalSet, ret, exit, next, exitIf, native, unreachable, phi]

def ofCode (c : UInt8) : Opcode :=
  if h : 37 ≤ c then unknown c h else known.getD c.toNat const

def code : Opcode → UInt8
  | const => 0
  | copy => 1
  | add => 2
  | sub => 3
  | mul => 4
  | div => 5
  | rem => 6
  | and => 7
  | or => 8
  | xor => 9
  | shl => 10
  | shr => 11
  | eq => 12
  | ne => 13
  | lt => 14
  | le => 15
  | gt => 16
  | ge => 17
  | neg => 18
  | eqz => 19
  | convert => 20
  | load => 21
  | store => 22
  | call => 23
  | callIndirect => 24
  | funcRef => 25
  | addr => 26
  | heapBase => 27
  | globalGet => 28
  | globalSet => 29
  | ret => 30
  | exit => 31
  | next => 32
  | exitIf => 33
  | native => 34
  | unreachable => 35
  | phi => 36
  | unknown c _ => c

/-- The name in listings. -/
def name : Opcode → String
  | const => "const"
  | copy => "copy"
  | add => "add"
  | sub => "sub"
  | mul => "mul"
  | div => "div"
  | rem => "rem"
  | and => "and"
  | or => "or"
  | xor => "xor"
  | shl => "shl"
  | shr => "shr"
  | eq => "eq"
  | ne => "ne"
  | lt => "lt"
  | le => "le"
  | gt => "gt"
  | ge => "ge"
  | neg => "neg"
  | eqz => "eqz"
  | convert => "convert"
  | load => "load"
  | store => "store"
  | call => "call"
  | callIndirect => "call_indirect"
  | funcRef => "funcref"
  | addr => "addr"
  | heapBase => "heap_base"
  | globalGet => "global.get"
  | globalSet => "global.set"
  | ret => "return"
  | exit => "break"
  | next => "continue"
  | exitIf => "break_if"
  | native => "native"
  | unreachable => "unreachable"
  | phi => "phi"
  | unknown _ _ => "op?"

@[simp]
theorem code_ofCode (c : UInt8) : (ofCode c).code = c := by
  unfold ofCode
  split
  · rfl
  · rename_i h
    have hc : c.toNat < 37 := by simpa [UInt8.le_iff_toNat_le] using h
    have key : ∀ n : Fin 37, (known.getD n.val const).code = n.val.toUInt8 := by decide
    simpa using key ⟨c.toNat, hc⟩

@[simp]
theorem ofCode_code (k : Opcode) : ofCode k.code = k := by
  cases k with
  | unknown c h => simp [code, ofCode, h]
  | _ => rfl

end Opcode

/-- A region of linear memory whose addresses are fixed when a module is emitted. -/
inductive Zone where
  | data
  | global
  | scratch
  | unknown (code : UInt8) (outside : 2 < code)
deriving DecidableEq, Repr, Inhabited

namespace Zone

def ofCode (c : UInt8) : Zone :=
  if h : 2 < c then unknown c h else [data, global, scratch].getD c.toNat data

def name : Zone → String
  | data => "data"
  | global => "global"
  | scratch => "scratch"
  | unknown _ _ => "zone?"

end Zone

/-- One assignment of a group that happens at once on a control-flow edge. -/
structure Copy where
  dst : Var
  src : Var
deriving DecidableEq, Repr, Inhabited

/-- The primitives a function takes and gives; `none` is no result. -/
structure Signature where
  params : List Prim := []
  result : Prim := .none
deriving DecidableEq, Repr, Inhabited

structure Instr where
  op : Opcode
  dst : List Var := []
  args : List Var := []
  /-- The primitive the instruction works on. -/
  storage : Prim := .none
  /-- The primitive a conversion starts from. -/
  source : Prim := .none
  imm : Int64 := 0
  float : Double := .zero
  offset : UInt32 := 0
  callee : Text := ""
  sig : Option Signature := none
  zone : Zone := .data
  index : Int := 0
  target : BlockId := 0
  /-- What a branch assigns on its way. -/
  copies : List Copy := []
deriving DecidableEq, Inhabited

namespace Instr

/-- Whether control may go to the target. -/
def isBranch (i : Instr) : Bool :=
  match i.op with
  | .exit | .next | .exitIf => true
  | _ => false

/-- Whether control never goes on behind the instruction. -/
def terminates (i : Instr) : Bool :=
  match i.op with
  | .ret | .exit | .next | .unreachable => true
  | .native => i.callee == "unreachable"
  | _ => false

/-- Whether the instruction may be dropped when its results are not used. -/
def isPure (i : Instr) : Bool :=
  match i.op with
  | .const | .copy | .add | .sub | .mul | .div | .rem | .and | .or | .xor | .shl | .shr | .eq
  | .ne | .lt | .le | .gt | .ge | .neg | .eqz | .convert | .load | .funcRef | .addr | .heapBase
  | .globalGet | .phi => true
  | .native => isPureIntrinsic i.callee
  | _ => false

/-- Whether repeating the instruction at each use is cheaper than keeping its result. -/
def isReproducible (i : Instr) : Bool :=
  match i.op with
  | .const | .addr | .funcRef | .heapBase => true
  | _ => false

end Instr

end WasmBackend.Ir
