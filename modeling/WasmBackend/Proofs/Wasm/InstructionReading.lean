import WasmBackend.Proofs.Wasm.Reading

/-!
# Reading instructions

The reader of instructions goes by the codes of the format: the instructions without operands and
those that touch memory stand in tables in the order of their codes, the others are told apart one
by one.  A body is read up to the byte that closes it, and nested bodies with the budget that is
left.  Instructions whose numbers fit into 32 bits are read back from their bytes.
-/

namespace WasmBackend.Wasm

/-- The byte between the two bodies of a construct. -/
def elseCode : UInt8 := 0x05

namespace Reader

/-! ## Codes -/

/-- The entry of a code in a table that begins at the code `first`. -/
def lookup {α : Type} (first : UInt8) (table : List α) (code : UInt8) : Option α :=
  if first ≤ code then table[(code - first).toNat]? else none

def intComparisons (w : Width) : List (Option Instruction) :=
  some (.intEqz w) ::
    [IntCompare.eq, .ne, .ltS, .ltU, .gtS, .gtU, .leS, .leU, .geS, .geU].map fun op ↦
      some (.intCompare w op)

def floatComparisons (w : Width) : List (Option Instruction) :=
  [FloatCompare.eq, .ne, .lt, .gt, .le, .ge].map fun op ↦ some (.floatCompare w op)

/-- The integer operators; the two rotations behind them have no instruction. -/
def intOperators (w : Width) : List (Option Instruction) :=
  [IntUnary.clz, .ctz, .popcnt].map (fun op ↦ some (.intUnary w op)) ++
  [IntBinary.add, .sub, .mul, .divS, .divU, .remS, .remU, .and, .or, .xor, .shl, .shrS, .shrU].map
    (fun op ↦ some (.intBinary w op)) ++
  [none, none]

/-- The float operators; the other two roundings, the extremes and the copied sign have no
instruction. -/
def floatOperators (w : Width) : List (Option Instruction) :=
  [FloatUnary.abs, .neg, .ceil, .floor].map (fun op ↦ some (.floatUnary w op)) ++
  [none, none, some (.floatUnary w .sqrt)] ++
  [FloatBinary.add, .sub, .mul, .div].map (fun op ↦ some (.floatBinary w op)) ++
  [none, none, none]

def conversions : List (Option Instruction) :=
  [Conversion.wrap,
    .truncate .w32 .w32 true, .truncate .w32 .w32 false,
    .truncate .w64 .w32 true, .truncate .w64 .w32 false,
    .extend true, .extend false,
    .truncate .w32 .w64 true, .truncate .w32 .w64 false,
    .truncate .w64 .w64 true, .truncate .w64 .w64 false,
    .round .w32 .w32 true, .round .w32 .w32 false,
    .round .w64 .w32 true, .round .w64 .w32 false,
    .demote,
    .round .w32 .w64 true, .round .w32 .w64 false,
    .round .w64 .w64 true, .round .w64 .w64 false,
    .promote].map fun c ↦ some (.convert c)

/-- The instructions without operands, from code 0x45 on. -/
def numericCodes : List (Option Instruction) :=
  intComparisons .w32 ++ intComparisons .w64 ++ floatComparisons .w32 ++ floatComparisons .w64 ++
    intOperators .w32 ++ intOperators .w64 ++ floatOperators .w32 ++ floatOperators .w64 ++
    conversions

/-- The loads, from code 0x28 on. -/
def loadCodes : List LoadKind :=
  [.i32, .i64, .f32, .f64, .byte true, .byte false, .half true, .half false]

/-- The stores, from code 0x36 on. -/
def storeCodes : List StoreKind :=
  [.i32, .i64, .f32, .f64, .byte, .half]

/-! ## Readers -/

/-- The offset of an access, which promises no alignment. -/
def offset : Reader UInt32 := do
  exactly 0x00
  Nat.toUInt32 <$> u32

/-- What stands behind the code of an instruction that no table holds. -/
def separate (code : UInt8) : Reader Instruction :=
  match code with
  | 0x00 => return .unreachable
  | 0x0C => .br <$> u32
  | 0x0D => .brIf <$> u32
  | 0x0F => return .ret
  | 0x10 => .call <$> u32
  | 0x11 => do
    let type ← u32
    exactly 0x00
    return .callIndirect type
  | 0x1A => return .drop
  | 0x20 => .localGet <$> u32
  | 0x21 => .localSet <$> u32
  | 0x23 => .globalGet <$> u32
  | 0x24 => .globalSet <$> u32
  | 0x3F => do
    exactly 0x00
    return .memorySize
  | 0x40 => do
    exactly 0x00
    return .memoryGrow
  | 0x41 => (fun n ↦ .i32Const (Int32.ofInt n).toUInt32) <$> signed 32
  | 0x42 => (fun n ↦ .i64Const (Int64.ofInt n)) <$> signed 64
  | 0x43 => (fun bytes ↦ .f32Const (ofLittleEndian bytes).toUInt32) <$> bytes 4
  | 0x44 => (fun bytes ↦ .f64Const (ofLittleEndian bytes).toUInt64) <$> bytes 8
  | _ => failure

/-- What stands behind the code of an instruction that is no construct. -/
def plain (code : UInt8) : Reader Instruction :=
  match (lookup 0x45 numericCodes code).join with
  | some i => return i
  | none =>
    match lookup 0x28 loadCodes code with
    | some kind => .load kind <$> offset
    | none =>
      match lookup 0x36 storeCodes code with
      | some kind => .store kind <$> offset
      | none => separate code

/-- A body that is closed by the end of its construct. -/
def closed (body : Reader (List Instruction × Bool)) : Reader (List Instruction) := do
  let (instructions, hasElse) ← body
  if hasElse then failure else return instructions

/-- What stands behind the code of an instruction, given the reader of nested bodies. -/
def instruction (body : Reader (List Instruction × Bool)) (code : UInt8) : Reader Instruction :=
  match code with
  | 0x02 => do
    exactly emptyBlockType
    .block <$> closed body
  | 0x03 => do
    exactly emptyBlockType
    .loop <$> closed body
  | 0x04 => do
    exactly emptyBlockType
    let (instructions, hasElse) ← body
    if hasElse then .ifElse instructions <$> closed body else return .ifThen instructions
  | code => plain code

/-- The instructions up to the byte that closes their body, and whether that byte opens another
one.  The budget bounds the bytes that are read. -/
def body : Nat → Reader (List Instruction × Bool)
  | 0 => failure
  | budget + 1 => do
    let code ← byte
    if code = endCode then return ([], false)
    else if code = elseCode then return ([], true)
    else
      let i ← instruction (body budget) code
      let (rest, hasElse) ← body budget
      return (i :: rest, hasElse)

/-- A constant expression or the code of a function: instructions up to the end. -/
def expression : Reader (List Instruction) :=
  fun bytes ↦ (closed (body bytes.length)).run bytes

end Reader

/-! ## Instructions whose numbers fit -/

mutual

/-- Every position and depth in an instruction fits into 32 bits. -/
def Instruction.Fits : Instruction → Prop
  | .block body | .loop body | .ifThen body => InstructionsFit body
  | .ifElse body other => InstructionsFit body ∧ InstructionsFit other
  | .br n | .brIf n | .call n | .callIndirect n | .localGet n | .localSet n | .globalGet n
  | .globalSet n => n < u32Bound
  | _ => True

/-- Every position and depth in some instructions fits into 32 bits. -/
def InstructionsFit : List Instruction → Prop
  | [] => True
  | i :: rest => i.Fits ∧ InstructionsFit rest

end

/-! ## Instructions are read back -/

open Reader

theorem reads_numeric {code : UInt8} {i : Instruction}
    (h : (lookup 0x45 numericCodes code).join = some i) : Reads (plain code) [] i := by
  rw [plain, h]
  exact .pure

theorem numericCodes_intEqz (w : Width) :
    (lookup 0x45 numericCodes (w.shift 0x45 0x0B)).join = some (.intEqz w) := by
  cases w <;> rfl

theorem numericCodes_intUnary (w : Width) (op : IntUnary) :
    (lookup 0x45 numericCodes (w.shift op.code 0x12)).join = some (.intUnary w op) := by
  cases w <;> cases op <;> rfl

theorem numericCodes_intBinary (w : Width) (op : IntBinary) :
    (lookup 0x45 numericCodes (w.shift op.code 0x12)).join = some (.intBinary w op) := by
  cases w <;> cases op <;> rfl

theorem numericCodes_intCompare (w : Width) (op : IntCompare) :
    (lookup 0x45 numericCodes (w.shift op.code 0x0B)).join = some (.intCompare w op) := by
  cases w <;> cases op <;> rfl

theorem numericCodes_floatUnary (w : Width) (op : FloatUnary) :
    (lookup 0x45 numericCodes (w.shift op.code 0x0E)).join = some (.floatUnary w op) := by
  cases w <;> cases op <;> rfl

theorem numericCodes_floatBinary (w : Width) (op : FloatBinary) :
    (lookup 0x45 numericCodes (w.shift op.code 0x0E)).join = some (.floatBinary w op) := by
  cases w <;> cases op <;> rfl

theorem numericCodes_floatCompare (w : Width) (op : FloatCompare) :
    (lookup 0x45 numericCodes (w.shift op.code 0x06)).join = some (.floatCompare w op) := by
  cases w <;> cases op <;> rfl

theorem numericCodes_convert (c : Conversion) :
    (lookup 0x45 numericCodes c.code).join = some (.convert c) := by
  cases c with
  | wrap => rfl
  | extend signed => cases signed <;> rfl
  | truncate float int signed => cases float <;> cases int <;> cases signed <;> rfl
  | round int float signed => cases int <;> cases float <;> cases signed <;> rfl
  | demote => rfl
  | promote => rfl

theorem reads_offset (v : UInt32) : Reads offset (0x00 :: Leb128.word v) v := by
  have h : Reads (Nat.toUInt32 <$> u32) (Leb128.word v) v.toNat.toUInt32 :=
    (reads_unsigned v.toNat_lt).map
  rw [Nat.toUInt32, UInt32.ofNat_toNat] at h
  exact (reads_exactly 0x00).bind h

theorem reads_load (kind : LoadKind) (v : UInt32) :
    Reads (plain kind.code) (0x00 :: Leb128.word v) (.load kind v) := by
  have h : plain kind.code = .load kind <$> offset := by
    cases kind with
    | byte signed => cases signed <;> rfl
    | half signed => cases signed <;> rfl
    | _ => rfl
  rw [h]
  exact (reads_offset v).map

theorem reads_store (kind : StoreKind) (v : UInt32) :
    Reads (plain kind.code) (0x00 :: Leb128.word v) (.store kind v) := by
  have h : plain kind.code = .store kind <$> offset := by
    cases kind <;> rfl
  rw [h]
  exact (reads_offset v).map

theorem reads_signedWord (v : UInt32) :
    Reads (signed 32) (Leb128.signedWord v) v.toInt32.toInt :=
  reads_signed (by simpa using v.toInt32.le_toInt) (by simpa using v.toInt32.toInt_lt)

theorem reads_i32Const (v : UInt32) :
    Reads (plain 0x41) (Leb128.signedWord v) (.i32Const v) := by
  show Reads ((fun n ↦ Instruction.i32Const (Int32.ofInt n).toUInt32) <$> signed 32) _ _
  simpa using (reads_signedWord v).map (g := fun n ↦ Instruction.i32Const (Int32.ofInt n).toUInt32)

theorem reads_i64Const (v : Int64) :
    Reads (plain 0x42) (Leb128.signed v.toInt) (.i64Const v) := by
  have h : Reads (signed 64) (Leb128.signed v.toInt) v.toInt :=
    reads_signed (by simpa using v.le_toInt) (by simpa using v.toInt_lt)
  show Reads ((fun n ↦ Instruction.i64Const (Int64.ofInt n)) <$> signed 64) _ _
  simpa using h.map (g := fun n ↦ Instruction.i64Const (Int64.ofInt n))

theorem reads_littleEndian (count n : Nat) :
    Reads (bytes count) (littleEndian count n) (littleEndian count n) := by
  simpa [length_littleEndian] using reads_bytes (littleEndian count n)

theorem reads_f32Const (v : UInt32) :
    Reads (plain 0x43) (littleEndian 4 v.toNat) (.f32Const v) := by
  show Reads ((fun bytes ↦ Instruction.f32Const (ofLittleEndian bytes).toUInt32) <$> bytes 4) _ _
  have h := (reads_littleEndian 4 v.toNat).map
    (g := fun bytes ↦ Instruction.f32Const (ofLittleEndian bytes).toUInt32)
  rw [ofLittleEndian_littleEndian (by simpa using v.toNat_lt)] at h
  simpa using h

theorem reads_f64Const (v : UInt64) :
    Reads (plain 0x44) (littleEndian 8 v.toNat) (.f64Const v) := by
  show Reads ((fun bytes ↦ Instruction.f64Const (ofLittleEndian bytes).toUInt64) <$> bytes 8) _ _
  have h := (reads_littleEndian 8 v.toNat).map
    (g := fun bytes ↦ Instruction.f64Const (ofLittleEndian bytes).toUInt64)
  rw [ofLittleEndian_littleEndian (by simpa using v.toNat_lt)] at h
  simpa using h

/-- The byte that closes a body, and whether another body follows it. -/
def closing (hasElse : Bool) : UInt8 :=
  if hasElse then elseCode else endCode

/-- A reader of bodies takes every body of fewer bytes than its budget up to the closing byte. -/
def ReadsBodies (body : Reader (List Instruction × Bool)) (budget : Nat) : Prop :=
  ∀ is hasElse, InstructionsFit is → (encodeInstructions is).length < budget →
    Reads body (encodeInstructions is ++ [closing hasElse]) (is, hasElse)

section Nested

variable {body : Reader (List Instruction × Bool)} {budget : Nat} {is : List Instruction}

theorem first_le_of_lookup {α : Type} {first code : UInt8} {table : List α} {a : α}
    (h : lookup first table code = some a) : first ≤ code := by
  unfold lookup at h
  split at h
  · assumption
  · cases h

/-- The constructs and the closing bytes have the lowest codes. -/
theorem Reads.instruction {code : UInt8} {operands : List UInt8} {i : Instruction}
    (h : Reads (plain code) operands i) (hcode : 0x0B < code) :
    code ≠ endCode ∧ code ≠ elseCode ∧ Reads (Reader.instruction body code) operands i := by
  have hne (low : UInt8) (hlow : low ≤ 0x0B) : code ≠ low := by
    rintro rfl
    exact UInt8.not_lt.mpr hlow hcode
  refine ⟨hne _ (by decide), hne _ (by decide), ?_⟩
  unfold Reader.instruction
  split
  · exact absurd rfl (hne _ (by decide))
  · exact absurd rfl (hne _ (by decide))
  · exact absurd rfl (hne _ (by decide))
  · exact h

theorem Reads.numeric {code : UInt8} {i : Instruction}
    (h : (lookup 0x45 numericCodes code).join = some i) :
    code ≠ endCode ∧ code ≠ elseCode ∧ Reads (Reader.instruction body code) [] i := by
  rw [Option.join_eq_some_iff] at h
  refine (reads_numeric (by rw [h]; rfl)).instruction ?_
  exact UInt8.lt_of_lt_of_le (show 0x0B < 0x45 by decide) (first_le_of_lookup h)

theorem LoadKind.lt_code (kind : LoadKind) : 0x0B < kind.code := by
  cases kind with
  | byte signed => cases signed <;> decide
  | half signed => cases signed <;> decide
  | _ => decide

theorem StoreKind.lt_code (kind : StoreKind) : 0x0B < kind.code := by
  cases kind <;> decide

theorem ReadsBodies.closed (h : ReadsBodies body budget) (hfit : InstructionsFit is)
    (hlength : (encodeInstructions is).length < budget) :
    Reads (Reader.closed body) (encodeInstructions is ++ [endCode]) is :=
  (h is false hfit hlength).bind_pure .pure

/-- The code of an instruction closes no body, and what stands behind it is read back. -/
theorem ReadsBodies.instruction (h : ReadsBodies body budget) {i : Instruction} (hfit : i.Fits)
    (hlength : i.encode.length ≤ budget) :
    ∃ code operands, i.encode = code :: operands ∧ code ≠ endCode ∧ code ≠ elseCode ∧
      Reads (Reader.instruction body code) operands i := by
  cases i with
  | unreachable => exact ⟨0x00, [], rfl, by decide, by decide, .pure⟩
  | block inner =>
    rw [Instruction.encode] at hlength
    simp only [List.length_cons, List.length_append] at hlength
    refine ⟨0x02, _, rfl, by decide, by decide, ?_⟩
    exact (reads_exactly emptyBlockType).bind (h.closed hfit (by omega)).map
  | loop inner =>
    rw [Instruction.encode] at hlength
    simp only [List.length_cons, List.length_append] at hlength
    refine ⟨0x03, _, rfl, by decide, by decide, ?_⟩
    exact (reads_exactly emptyBlockType).bind (h.closed hfit (by omega)).map
  | ifThen inner =>
    rw [Instruction.encode] at hlength
    simp only [List.length_cons, List.length_append] at hlength
    refine ⟨0x04, _, rfl, by decide, by decide, ?_⟩
    refine (reads_exactly emptyBlockType).bind ?_
    exact (h inner false hfit (by omega)).bind_pure .pure
  | ifElse inner other =>
    rw [Instruction.encode] at hlength
    simp only [List.length_cons, List.length_append] at hlength
    obtain ⟨hinner, hother⟩ := hfit
    refine ⟨0x04, _, rfl, by decide, by decide, ?_⟩
    refine (reads_exactly emptyBlockType).bind ?_
    refine ((h inner true hinner (by omega)).bind (h.closed hother (by omega)).map).of_eq ?_
    simp [closing, elseCode]
  | br depth => exact ⟨_, _, rfl, Reads.instruction (reads_unsigned hfit).map (by decide)⟩
  | brIf depth => exact ⟨_, _, rfl, Reads.instruction (reads_unsigned hfit).map (by decide)⟩
  | ret => exact ⟨0x0F, [], rfl, Reads.instruction .pure (by decide)⟩
  | call f => exact ⟨_, _, rfl, Reads.instruction (reads_unsigned hfit).map (by decide)⟩
  | callIndirect type =>
    refine ⟨_, _, rfl, Reads.instruction ?_ (by decide)⟩
    exact (reads_unsigned hfit).bind ((reads_exactly 0x00).bind_pure .pure)
  | drop => exact ⟨0x1A, [], rfl, Reads.instruction .pure (by decide)⟩
  | localGet n => exact ⟨_, _, rfl, Reads.instruction (reads_unsigned hfit).map (by decide)⟩
  | localSet n => exact ⟨_, _, rfl, Reads.instruction (reads_unsigned hfit).map (by decide)⟩
  | globalGet n => exact ⟨_, _, rfl, Reads.instruction (reads_unsigned hfit).map (by decide)⟩
  | globalSet n => exact ⟨_, _, rfl, Reads.instruction (reads_unsigned hfit).map (by decide)⟩
  | load kind offset => exact ⟨_, _, rfl, (reads_load kind offset).instruction kind.lt_code⟩
  | store kind offset => exact ⟨_, _, rfl, (reads_store kind offset).instruction kind.lt_code⟩
  | memorySize =>
    refine ⟨0x3F, [0x00], rfl, Reads.instruction ?_ (by decide)⟩
    exact (reads_exactly 0x00).bind_pure .pure
  | memoryGrow =>
    refine ⟨0x40, [0x00], rfl, Reads.instruction ?_ (by decide)⟩
    exact (reads_exactly 0x00).bind_pure .pure
  | i32Const v => exact ⟨_, _, rfl, (reads_i32Const v).instruction (by decide)⟩
  | i64Const v => exact ⟨_, _, rfl, (reads_i64Const v).instruction (by decide)⟩
  | f32Const v => exact ⟨_, _, rfl, (reads_f32Const v).instruction (by decide)⟩
  | f64Const v => exact ⟨_, _, rfl, (reads_f64Const v).instruction (by decide)⟩
  | intEqz w => exact ⟨_, _, rfl, Reads.numeric (numericCodes_intEqz w)⟩
  | intUnary w op => exact ⟨_, _, rfl, Reads.numeric (numericCodes_intUnary w op)⟩
  | intBinary w op => exact ⟨_, _, rfl, Reads.numeric (numericCodes_intBinary w op)⟩
  | intCompare w op => exact ⟨_, _, rfl, Reads.numeric (numericCodes_intCompare w op)⟩
  | floatUnary w op => exact ⟨_, _, rfl, Reads.numeric (numericCodes_floatUnary w op)⟩
  | floatBinary w op => exact ⟨_, _, rfl, Reads.numeric (numericCodes_floatBinary w op)⟩
  | floatCompare w op => exact ⟨_, _, rfl, Reads.numeric (numericCodes_floatCompare w op)⟩
  | convert c => exact ⟨_, _, rfl, Reads.numeric (numericCodes_convert c)⟩

end Nested

/-- Bodies are read back, by induction on the budget: an instruction takes at least its code. -/
theorem readsBodies_body (budget : Nat) : ReadsBodies (body budget) budget := by
  induction budget with
  | zero =>
    intro is hasElse _ hlength
    exact absurd hlength (Nat.not_lt_zero _)
  | succ budget ih =>
    intro is hasElse hfit hlength
    cases is with
    | nil =>
      refine (reads_byte (closing hasElse)).bind_pure ?_
      cases hasElse <;> exact .pure
    | cons i is =>
      obtain ⟨hi, his⟩ := hfit
      rw [encodeInstructions, List.length_append] at hlength
      obtain ⟨code, operands, hcode, hend, helse, hreads⟩ := ih.instruction hi (by omega)
      rw [encodeInstructions, hcode, List.append_assoc, List.cons_append]
      rw [hcode, List.length_cons] at hlength
      refine (reads_byte code).bind ?_
      rw [if_neg hend, if_neg helse]
      refine hreads.bind ?_
      exact (ih is hasElse his (by omega)).bind_pure .pure

/-- Instructions are read back up to the end of their expression. -/
theorem reads_expression {is : List Instruction} (hfit : InstructionsFit is) :
    Reads expression (encodeInstructions is ++ [endCode]) is := by
  intro rest
  refine (readsBodies_body _).closed hfit ?_ rest
  simp only [List.length_append, List.length_cons, List.length_nil]
  omega

end WasmBackend.Wasm
