import WasmBackend.Text

/-!
# Primitive storage kinds

Every value is in the end a sequence of primitives, in registers as well as in linear memory.  A
primitive that is narrower than a register widens to the 32-bit integer register.
-/

namespace WasmBackend

/-- A primitive storage kind; codes from 12 on name none and behave like an unsized integer. -/
inductive Prim where
  | none
  | bool
  | i8
  | u8
  | i16
  | u16
  | i32
  | u32
  | i64
  | u64
  | f32
  | f64
  | unknown (code : UInt8) (outside : 12 ≤ code)
deriving DecidableEq, Repr, Inhabited

/-- The value types of WebAssembly registers. -/
inductive ValType where
  | i32
  | i64
  | f32
  | f64
deriving DecidableEq, Repr, Inhabited

namespace ValType

def name : ValType → String
  | i32 => "i32"
  | i64 => "i64"
  | f32 => "f32"
  | f64 => "f64"

/-- The byte that stands for the type in the binary format. -/
def code : ValType → UInt8
  | i32 => 0x7F
  | i64 => 0x7E
  | f32 => 0x7D
  | f64 => 0x7C

/-- The type a byte of the binary format stands for. -/
def ofCode? (c : UInt8) : Option ValType :=
  if c = 0x7F then some i32
  else if c = 0x7E then some i64
  else if c = 0x7D then some f32
  else if c = 0x7C then some f64
  else Option.none

/-- The register width. -/
def bits : ValType → Nat
  | i32 => 32
  | i64 => 64
  | f32 => 32
  | f64 => 64

@[simp]
theorem ofCode?_code (v : ValType) : ofCode? v.code = some v := by
  cases v <;> rfl

end ValType

namespace Prim

/-- The known primitives in code order. -/
def known : List Prim :=
  [none, bool, i8, u8, i16, u16, i32, u32, i64, u64, f32, f64]

def ofCode (c : UInt8) : Prim :=
  if h : 12 ≤ c then unknown c h else known.getD c.toNat none

def code : Prim → UInt8
  | none => 0
  | bool => 1
  | i8 => 2
  | u8 => 3
  | i16 => 4
  | u16 => 5
  | i32 => 6
  | u32 => 7
  | i64 => 8
  | u64 => 9
  | f32 => 10
  | f64 => 11
  | unknown c _ => c

def name : Prim → String
  | none => "none"
  | bool => "bool"
  | i8 => "i8"
  | u8 => "u8"
  | i16 => "i16"
  | u16 => "u16"
  | i32 => "i32"
  | u32 => "u32"
  | i64 => "i64"
  | u64 => "u64"
  | f32 => "f32"
  | f64 => "f64"
  | unknown _ _ => "prim?"

/-- The primitive of that name; `none` is not one. -/
def ofName? (s : String) : Option Prim :=
  known.tail.find? fun p => p.name == s

/-- Pointers, class references and table indices are stored as this. -/
abbrev pointer : Prim := u32

/-- The bytes a pointer takes. -/
abbrev pointerSize : Nat := 4

/-- The bytes a value takes in linear memory. -/
def size : Prim → Nat
  | bool | i8 | u8 => 1
  | i16 | u16 => 2
  | i32 | u32 | f32 => 4
  | i64 | u64 | f64 => 8
  | none | unknown _ _ => 0

def isSigned : Prim → Bool
  | i8 | i16 | i32 | i64 => true
  | _ => false

def isFloat : Prim → Bool
  | f32 | f64 => true
  | _ => false

def isInt (p : Prim) : Bool :=
  p != none && !p.isFloat

/-- The register type that holds the primitive. -/
def valType : Prim → ValType
  | i64 | u64 => .i64
  | f32 => .f32
  | f64 => .f64
  | _ => .i32

/-- The signed integer of the same width. -/
def asSigned : Prim → Prim
  | u8 => i8
  | u16 => i16
  | u32 | bool => i32
  | u64 => i64
  | p => p

@[simp]
theorem code_ofCode (c : UInt8) : (ofCode c).code = c := by
  unfold ofCode
  split
  · rfl
  · rename_i h
    have hc : c.toNat < 12 := by
      simpa [UInt8.le_iff_toNat_le] using h
    have key : ∀ n : Fin 12, (known.getD n.val none).code = n.val.toUInt8 := by decide
    have := key ⟨c.toNat, hc⟩
    simpa using this

@[simp]
theorem ofCode_code (p : Prim) : ofCode p.code = p := by
  cases p with
  | unknown c h => simp [code, ofCode, h]
  | _ => rfl

end Prim

/-!
## Intrinsics

A native function stands for one of a few operations of the target machine.
-/

/-- The known intrinsics and whether they have no effect besides their result. -/
def intrinsics : List (Text × Bool) :=
  [("sqrt", true), ("floor", true), ("ceil", true), ("abs", true), ("clz", true), ("ctz", true),
    ("popcnt", true), ("memory_size", false), ("memory_grow", false), ("unreachable", false)]

def isIntrinsic (name : Text) : Bool :=
  (intrinsics.lookup name).isSome

/-- Whether an intrinsic may be dropped when its result is not used. -/
def isPureIntrinsic (name : Text) : Bool :=
  (intrinsics.lookup name).getD false

end WasmBackend
