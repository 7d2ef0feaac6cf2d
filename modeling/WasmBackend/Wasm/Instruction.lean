/-!
# Machine instructions

The instructions the code generator uses, with structured control as nested bodies.  Blocks take
and leave nothing on the operand stack.  `Instruction.encode` gives the bytes of the binary format.
-/

namespace WasmBackend.Wasm

/-!
## Variable-length integers

A number is written as bytes of seven bits each, lowest first; every byte but the last has its
high bit set.  Signed numbers are cut off where the rest only repeats the sign, which is the
second-highest bit of the last byte.
-/

namespace Leb128

/-- The shortest bytes of an unsigned number. -/
def unsigned (n : Nat) : List UInt8 :=
  if n < 128 then [n.toUInt8] else (n % 128 + 128).toUInt8 :: unsigned (n / 128)
termination_by n
decreasing_by omega

/-- Whether what remains of a signed number behind the seven bits `low` only repeats its sign. -/
def signOnly (low rest : Int) : Bool :=
  (rest = 0 && low < 64) || (rest = -1 && 64 ≤ low)

/-- The shortest bytes of a signed number. -/
def signed (n : Int) : List UInt8 :=
  if signOnly (n % 128) (n / 128) then [(n % 128).toNat.toUInt8]
  else (n % 128 + 128).toNat.toUInt8 :: signed (n / 128)
termination_by n.natAbs
decreasing_by
  rename_i h
  simp only [signOnly, Bool.or_eq_true, Bool.and_eq_true, decide_eq_true_eq, not_or, not_and] at h
  omega

/-- The bytes of a word. -/
def word (v : UInt32) : List UInt8 :=
  unsigned v.toNat

/-- The bytes of a word read as a two's-complement number. -/
def signedWord (v : UInt32) : List UInt8 :=
  signed v.toInt32.toInt

end Leb128

/-! ## Instructions -/

/-- The two widths of each number class. -/
inductive Width where
  | w32
  | w64
deriving DecidableEq, Repr, Inhabited

/-- The wider form of an opcode is a fixed distance behind the narrower one. -/
def Width.shift (w : Width) (code distance : UInt8) : UInt8 :=
  match w with
  | .w32 => code
  | .w64 => code + distance

inductive IntUnary where
  | clz
  | ctz
  | popcnt
deriving DecidableEq, Repr, Inhabited

def IntUnary.code : IntUnary → UInt8
  | clz => 0x67
  | ctz => 0x68
  | popcnt => 0x69

inductive IntBinary where
  | add
  | sub
  | mul
  | divS
  | divU
  | remS
  | remU
  | and
  | or
  | xor
  | shl
  | shrS
  | shrU
deriving DecidableEq, Repr, Inhabited

def IntBinary.code : IntBinary → UInt8
  | add => 0x6A
  | sub => 0x6B
  | mul => 0x6C
  | divS => 0x6D
  | divU => 0x6E
  | remS => 0x6F
  | remU => 0x70
  | and => 0x71
  | or => 0x72
  | xor => 0x73
  | shl => 0x74
  | shrS => 0x75
  | shrU => 0x76

inductive IntCompare where
  | eq
  | ne
  | ltS
  | ltU
  | gtS
  | gtU
  | leS
  | leU
  | geS
  | geU
deriving DecidableEq, Repr, Inhabited

def IntCompare.code : IntCompare → UInt8
  | eq => 0x46
  | ne => 0x47
  | ltS => 0x48
  | ltU => 0x49
  | gtS => 0x4A
  | gtU => 0x4B
  | leS => 0x4C
  | leU => 0x4D
  | geS => 0x4E
  | geU => 0x4F

inductive FloatUnary where
  | abs
  | neg
  | ceil
  | floor
  | sqrt
deriving DecidableEq, Repr, Inhabited

def FloatUnary.code : FloatUnary → UInt8
  | abs => 0x8B
  | neg => 0x8C
  | ceil => 0x8D
  | floor => 0x8E
  | sqrt => 0x91

inductive FloatBinary where
  | add
  | sub
  | mul
  | div
deriving DecidableEq, Repr, Inhabited

def FloatBinary.code : FloatBinary → UInt8
  | add => 0x92
  | sub => 0x93
  | mul => 0x94
  | div => 0x95

inductive FloatCompare where
  | eq
  | ne
  | lt
  | gt
  | le
  | ge
deriving DecidableEq, Repr, Inhabited

def FloatCompare.code : FloatCompare → UInt8
  | eq => 0x5B
  | ne => 0x5C
  | lt => 0x5D
  | gt => 0x5E
  | le => 0x5F
  | ge => 0x60

/-- Conversions between number classes and widths. -/
inductive Conversion where
  /-- The low half of a wide integer. -/
  | wrap
  /-- A narrow integer widened by its sign or by zeros. -/
  | extend (signed : Bool)
  /-- The integer part of a float; traps when it does not fit. -/
  | truncate (float int : Width) (signed : Bool)
  /-- The float nearest to an integer. -/
  | round (int float : Width) (signed : Bool)
  /-- The narrow float nearest to a wide one. -/
  | demote
  | promote
deriving DecidableEq, Repr, Inhabited

def Conversion.code : Conversion → UInt8
  | wrap => 0xA7
  | truncate .w32 .w32 signed => if signed then 0xA8 else 0xA9
  | truncate .w64 .w32 signed => if signed then 0xAA else 0xAB
  | extend signed => if signed then 0xAC else 0xAD
  | truncate .w32 .w64 signed => if signed then 0xAE else 0xAF
  | truncate .w64 .w64 signed => if signed then 0xB0 else 0xB1
  | round .w32 .w32 signed => if signed then 0xB2 else 0xB3
  | round .w64 .w32 signed => if signed then 0xB4 else 0xB5
  | demote => 0xB6
  | round .w32 .w64 signed => if signed then 0xB7 else 0xB8
  | round .w64 .w64 signed => if signed then 0xB9 else 0xBA
  | promote => 0xBB

/-- What a load reads. -/
inductive LoadKind where
  | i32
  | i64
  | f32
  | f64
  /-- One byte, widened to 32 bits. -/
  | byte (signed : Bool)
  /-- Two bytes, widened to 32 bits. -/
  | half (signed : Bool)
deriving DecidableEq, Repr, Inhabited

def LoadKind.code : LoadKind → UInt8
  | i32 => 0x28
  | i64 => 0x29
  | f32 => 0x2A
  | f64 => 0x2B
  | byte signed => if signed then 0x2C else 0x2D
  | half signed => if signed then 0x2E else 0x2F

/-- What a store writes. -/
inductive StoreKind where
  | i32
  | i64
  | f32
  | f64
  /-- The lowest byte of 32 bits. -/
  | byte
  /-- The lowest two bytes of 32 bits. -/
  | half
deriving DecidableEq, Repr, Inhabited

def StoreKind.code : StoreKind → UInt8
  | i32 => 0x36
  | i64 => 0x37
  | f32 => 0x38
  | f64 => 0x39
  | byte => 0x3A
  | half => 0x3B

inductive Instruction where
  | unreachable
  | block (body : List Instruction)
  | loop (body : List Instruction)
  | ifThen (body : List Instruction)
  | ifElse (body other : List Instruction)
  /-- Leaves `depth + 1` enclosing constructs, or repeats the loop among them that is left last. -/
  | br (depth : Nat)
  | brIf (depth : Nat)
  | ret
  | call (function : Nat)
  | callIndirect (type : Nat)
  | drop
  | localGet (index : Nat)
  | localSet (index : Nat)
  | globalGet (index : Nat)
  | globalSet (index : Nat)
  | load (kind : LoadKind) (offset : UInt32)
  | store (kind : StoreKind) (offset : UInt32)
  | memorySize
  | memoryGrow
  | i32Const (value : UInt32)
  | i64Const (value : Int64)
  | f32Const (bits : UInt32)
  | f64Const (bits : UInt64)
  | intEqz (w : Width)
  | intUnary (w : Width) (op : IntUnary)
  | intBinary (w : Width) (op : IntBinary)
  | intCompare (w : Width) (op : IntCompare)
  | floatUnary (w : Width) (op : FloatUnary)
  | floatBinary (w : Width) (op : FloatBinary)
  | floatCompare (w : Width) (op : FloatCompare)
  | convert (c : Conversion)
deriving Inhabited

/-- The lowest `count` bytes of a number, lowest first. -/
def littleEndian (count : Nat) (n : Nat) : List UInt8 :=
  (List.range count).map fun i => (n >>> (8 * i)).toUInt8

/-- A block that takes and leaves nothing. -/
def emptyBlockType : UInt8 := 0x40

/-- The byte that closes a body. -/
def endCode : UInt8 := 0x0B

mutual

/-- The bytes of an instruction. -/
def Instruction.encode : Instruction → List UInt8
  | .unreachable => [0x00]
  | .block body => 0x02 :: emptyBlockType :: (encodeInstructions body ++ [endCode])
  | .loop body => 0x03 :: emptyBlockType :: (encodeInstructions body ++ [endCode])
  | .ifThen body => 0x04 :: emptyBlockType :: (encodeInstructions body ++ [endCode])
  | .ifElse body other =>
    0x04 :: emptyBlockType ::
      (encodeInstructions body ++ 0x05 :: (encodeInstructions other ++ [endCode]))
  | .br depth => 0x0C :: Leb128.unsigned depth
  | .brIf depth => 0x0D :: Leb128.unsigned depth
  | .ret => [0x0F]
  | .call function => 0x10 :: Leb128.unsigned function
  | .callIndirect type => 0x11 :: (Leb128.unsigned type ++ [0x00])
  | .drop => [0x1A]
  | .localGet index => 0x20 :: Leb128.unsigned index
  | .localSet index => 0x21 :: Leb128.unsigned index
  | .globalGet index => 0x23 :: Leb128.unsigned index
  | .globalSet index => 0x24 :: Leb128.unsigned index
  | .load kind offset => kind.code :: 0x00 :: Leb128.word offset
  | .store kind offset => kind.code :: 0x00 :: Leb128.word offset
  | .memorySize => [0x3F, 0x00]
  | .memoryGrow => [0x40, 0x00]
  | .i32Const value => 0x41 :: Leb128.signedWord value
  | .i64Const value => 0x42 :: Leb128.signed value.toInt
  | .f32Const bits => 0x43 :: littleEndian 4 bits.toNat
  | .f64Const bits => 0x44 :: littleEndian 8 bits.toNat
  | .intEqz w => [w.shift 0x45 0x0B]
  | .intUnary w op => [w.shift op.code 0x12]
  | .intBinary w op => [w.shift op.code 0x12]
  | .intCompare w op => [w.shift op.code 0x0B]
  | .floatUnary w op => [w.shift op.code 0x0E]
  | .floatBinary w op => [w.shift op.code 0x0E]
  | .floatCompare w op => [w.shift op.code 0x06]
  | .convert c => [c.code]

/-- The bytes of instructions in order. -/
def encodeInstructions : List Instruction → List UInt8
  | [] => []
  | i :: rest => i.encode ++ encodeInstructions rest

end

end WasmBackend.Wasm
