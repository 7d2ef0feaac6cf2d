import WasmBackend.Failure
import WasmBackend.Ir.Instr
import WasmBackend.Wasm.Instruction

/-!
# Choosing instructions

Which machine instruction does what an opcode asks for on a primitive.  Registers hold four classes
of numbers; signedness of a narrow integer matters only where the machine has two forms.
-/

namespace WasmBackend.Wasm

open Ir (Opcode)

/-- Pick the signed or the unsigned form. -/
def pick {α : Type} (isSigned : Bool) (s u : α) : α :=
  if isSigned then s else u

/-- The integer arithmetic an opcode stands for. -/
def intBinary? (isSigned : Bool) : Opcode → Option IntBinary
  | .add => some .add
  | .sub => some .sub
  | .mul => some .mul
  | .div => some (pick isSigned .divS .divU)
  | .rem => some (pick isSigned .remS .remU)
  | .and => some .and
  | .or => some .or
  | .xor => some .xor
  | .shl => some .shl
  | .shr => some (pick isSigned .shrS .shrU)
  | _ => none

/-- The integer comparison an opcode stands for. -/
def intCompare? (isSigned : Bool) : Opcode → Option IntCompare
  | .eq => some .eq
  | .ne => some .ne
  | .lt => some (pick isSigned .ltS .ltU)
  | .le => some (pick isSigned .leS .leU)
  | .gt => some (pick isSigned .gtS .gtU)
  | .ge => some (pick isSigned .geS .geU)
  | _ => none

/-- The float arithmetic an opcode stands for. -/
def floatBinary? : Opcode → Option FloatBinary
  | .add => some .add
  | .sub => some .sub
  | .mul => some .mul
  | .div => some .div
  | _ => none

/-- The float comparison an opcode stands for. -/
def floatCompare? : Opcode → Option FloatCompare
  | .eq => some .eq
  | .ne => some .ne
  | .lt => some .lt
  | .le => some .le
  | .gt => some .gt
  | .ge => some .ge
  | _ => none

/-- The width of a register. -/
def widthOf : ValType → Width
  | .i32 | .f32 => .w32
  | .i64 | .f64 => .w64

/-- Whether a register holds a float. -/
def holdsFloat : ValType → Bool
  | .f32 | .f64 => true
  | .i32 | .i64 => false

/-- The instruction of a two-operand opcode on a primitive; `here` names the function for the
error. -/
def selectBinary (here : Text) (op : Opcode) (p : Prim) : Except Failure Instruction :=
  let w := widthOf p.valType
  if holdsFloat p.valType then
    match floatBinary? op, floatCompare? op with
    | some o, _ => .ok (.floatBinary w o)
    | none, some o => .ok (.floatCompare w o)
    | none, none =>
      .error (.internal (here ++ ": " ++ op.name ++ " has no " ++ p.name ++ " form"))
  else
    match intBinary? p.isSigned op, intCompare? p.isSigned op with
    | some o, _ => .ok (.intBinary w o)
    | none, some o => .ok (.intCompare w o)
    | none, none =>
      .error (.internal (here ++ ": " ++ op.name ++ " is not a binary operation"))

/-- How a primitive is read from memory. -/
def selectLoad (p : Prim) : Except Failure LoadKind :=
  match p with
  | .bool | .u8 => .ok (.byte false)
  | .i8 => .ok (.byte true)
  | .i16 => .ok (.half true)
  | .u16 => .ok (.half false)
  | .i32 | .u32 => .ok .i32
  | .i64 | .u64 => .ok .i64
  | .f32 => .ok .f32
  | .f64 => .ok .f64
  | .none | .unknown _ _ => .error (.internal ("wasm: cannot load " ++ p.name))

/-- How a primitive is written to memory. -/
def selectStore (p : Prim) : Except Failure StoreKind :=
  match p with
  | .bool | .i8 | .u8 => .ok .byte
  | .i16 | .u16 => .ok .half
  | .i32 | .u32 => .ok .i32
  | .i64 | .u64 => .ok .i64
  | .f32 => .ok .f32
  | .f64 => .ok .f64
  | .none | .unknown _ _ => .error (.internal ("wasm: cannot store " ++ p.name))

/-- The conversion between registers.  An integer is converted by its own signedness, a float by
that of the target. -/
def selectConversion (source target : Prim) : Except Failure Conversion :=
  match source.valType, target.valType with
  | .i32, .i64 => .ok (.extend source.isSigned)
  | .i64, .i32 => .ok .wrap
  | .i32, .f32 => .ok (.round .w32 .w32 source.isSigned)
  | .i64, .f32 => .ok (.round .w64 .w32 source.isSigned)
  | .f64, .f32 => .ok .demote
  | .i32, .f64 => .ok (.round .w32 .w64 source.isSigned)
  | .i64, .f64 => .ok (.round .w64 .w64 source.isSigned)
  | .f32, .f64 => .ok .promote
  | .f32, .i32 => .ok (.truncate .w32 .w32 target.isSigned)
  | .f64, .i32 => .ok (.truncate .w64 .w32 target.isSigned)
  | .f32, .i64 => .ok (.truncate .w32 .w64 target.isSigned)
  | .f64, .i64 => .ok (.truncate .w64 .w64 target.isSigned)
  | .i32, .i32 | .i64, .i64 | .f32, .f32 | .f64, .f64 =>
    .error (.internal ("wasm: no conversion from " ++ source.name ++ " to " ++ target.name))

/-- The instruction that puts a constant on the stack; integers wrap to the register. -/
def selectConst (p : Prim) (imm : Int64) (float : Double) : Instruction :=
  match p.valType with
  | .i32 => .i32Const imm.toInt32.toUInt32
  | .i64 => .i64Const imm
  | .f32 => .f32Const float.toSingle
  | .f64 => .f64Const float.bits

/-- The test of a value of a primitive for zero. -/
def selectEqz (p : Prim) : List Instruction :=
  match p.valType with
  | .i32 => [.intEqz .w32]
  | .i64 => [.intEqz .w64]
  | .f32 => [.f32Const 0, .floatCompare .w32 .eq]
  | .f64 => [.f64Const 0, .floatCompare .w64 .eq]

/-- The float intrinsics. -/
def floatIntrinsic? (name : Text) : Option FloatUnary :=
  if name = "sqrt" then some .sqrt
  else if name = "floor" then some .floor
  else if name = "ceil" then some .ceil
  else if name = "abs" then some .abs
  else none

/-- The bit-counting intrinsics. -/
def intIntrinsic? (name : Text) : Option IntUnary :=
  if name = "clz" then some .clz
  else if name = "ctz" then some .ctz
  else if name = "popcnt" then some .popcnt
  else none

end WasmBackend.Wasm
