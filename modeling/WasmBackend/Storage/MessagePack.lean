import WasmBackend.Storage.Shape

/-!
# MessagePack

The binary form of stored values.  Numbers are written in the full width of their shape, lengths in
the shortest header.  Reading is lenient: numbers may have any width, records any key order and
unknown keys, a record may be an array of all its fields, and nothing stands for the zero of any
shape.  A field that comes twice is read over what it held: a record keeps the fields that are not
given again, and so do the items of a list, also those that a shorter list has hidden in between.
-/

namespace WasmBackend.Storage.MessagePack

/-- The lowest `count` bytes of a number, highest first. -/
def bigEndian (count n : Nat) : List UInt8 :=
  (List.range count).reverse.map fun i => (n >>> (8 * i)).toUInt8

/-! ## Writing -/

/-- A length, in the byte of its kind when it is below `limit`, else behind one of the codes for
one, two and four bytes; there may be no code for one byte. -/
def writeLength (small limit : Nat) (one : Option UInt8) (two four : UInt8) (n : Nat) :
    List UInt8 :=
  if n < limit then [(small + n).toUInt8]
  else
    match one with
    | some code =>
      if n < 256 then code :: bigEndian 1 n
      else if n < 65536 then two :: bigEndian 2 n
      else four :: bigEndian 4 n
    | none => if n < 65536 then two :: bigEndian 2 n else four :: bigEndian 4 n

def writeText (t : Text) : List UInt8 :=
  writeLength 0xA0 32 (some 0xD9) 0xDA 0xDB t.size ++ t.bytes

def writeBytes (bs : List UInt8) : List UInt8 :=
  if bs.isEmpty then [0xC0] else writeLength 0 0 (some 0xC4) 0xC5 0xC6 bs.length ++ bs

def writeArrayLength (n : Nat) : List UInt8 :=
  writeLength 0x90 16 none 0xDC 0xDD n

def writeMapLength (n : Nat) : List UInt8 :=
  writeLength 0x80 16 none 0xDE 0xDF n

/-- An unsigned number in its full width. -/
def writeWord (bytes : Nat) (n : Nat) : List UInt8 :=
  (if bytes = 1 then 0xCC else if bytes = 2 then 0xCD else if bytes = 4 then 0xCE else 0xCF)
    :: bigEndian bytes n

def writeInt64 (n : Int) : List UInt8 :=
  0xD3 :: bigEndian 8 (Int64.ofInt n).toUInt64.toNat

def writeDouble (d : Double) : List UInt8 :=
  0xCB :: bigEndian 8 d.bits.toNat

/-- A moment in the shortest of the three forms of the timestamp extension. -/
def writeMoment (t : Instant) : List UInt8 :=
  let seconds := (Int64.ofInt t.seconds).toUInt64.toNat
  if seconds < 0x400000000 then
    if t.nanos = 0 ∧ seconds < 0x100000000 then 0xD6 :: 0xFF :: bigEndian 4 seconds
    else 0xD7 :: 0xFF :: bigEndian 8 (t.nanos * 0x400000000 + seconds)
  else 0xC7 :: 12 :: 0xFF :: (bigEndian 4 t.nanos ++ bigEndian 8 seconds)

mutual

/-- The bytes of a value. -/
def write : Shape → Datum → List UInt8
  | .bool, .bool b => [if b then 0xC3 else 0xC2]
  | .word bytes, .num n => writeWord bytes n.toNat
  | .int64, .num n => writeInt64 n
  | .double, .double d => writeDouble d
  | .text, .text t => writeText t
  | .bytes, .bytes bs => writeBytes bs
  | .moment, .moment t => writeMoment t
  | .list elem, .list items _ =>
    if items.isEmpty then [0xC0]
    else writeArrayLength items.length ++ items.flatMap (write elem)
  | .record fields, .record vs => writeFields fields vs
  | .optional fields, .record vs => writeFields fields vs
  | _, _ => [0xC0]

/-- The keys and values of fields that are written, behind their number. -/
def writeFields (fields : Fields) (vs : List Datum) : List UInt8 :=
  let parts := writeParts fields vs
  writeMapLength parts.length ++ parts.flatten

/-- The key and value of every field that is written. -/
def writeParts : Fields → List Datum → List (List UInt8)
  | .cons key always shape rest, v :: vs =>
    if v.isZero && !always then writeParts rest vs
    else (writeText key ++ write shape v) :: writeParts rest vs
  | _, _ => []

end

/-! ## Reading -/

/-- Reads a value from the front of some bytes. -/
abbrev Reader := StateT (List UInt8) Option

def readByte : Reader UInt8 := fun
  | b :: rest => some (b, rest)
  | [] => none

/-- The next `n` bytes. -/
def readBytes (n : Nat) : Reader (List UInt8) := fun bs =>
  let taken := bs.take n
  if taken.length = n then some (taken, bs.drop n) else none

/-- An unsigned number of `n` bytes, highest first. -/
def readWord (n : Nat) : Reader Nat := do
  return (← readBytes n).foldl (fun acc b => acc * 256 + b.toNat) 0

/-- A number of `n` bytes in two's complement. -/
def readSigned (n : Nat) : Reader Int := do
  let v ← readWord n
  return if v < 1 <<< (8 * n - 1) then v else (v : Int) - (1 <<< (8 * n) : Nat)

/-- The number a code announces, if it announces one. -/
def readNumber (code : UInt8) : Reader Int :=
  if code = 0xC0 then pure 0
  else if code < 0x80 then pure code.toNat
  else if 0xE0 ≤ code then pure ((code.toNat : Int) - 256)
  else if 0xCC ≤ code ∧ code ≤ 0xCF then
    return (← readWord (1 <<< (code.toNat - 0xCC)) : Nat)
  else if 0xD0 ≤ code ∧ code ≤ 0xD3 then readSigned (1 <<< (code.toNat - 0xD0))
  else failure

def readBool : Reader Bool := do
  let code ← readByte
  if code = 0xC0 ∨ code = 0xC2 then return false
  else if code = 0xC3 then return true
  else failure

def readDouble : Reader Double := do
  let code ← readByte
  if code = 0xCA then return .ofSingle (← readWord 4).toUInt32
  else if code = 0xCB then return ⟨(← readWord 8).toUInt64⟩
  else return .ofInt (Int64.ofInt (← readNumber code)).toInt

/-- The number of bytes of a text or of raw bytes; none for nothing. -/
def readBytesLength (code : UInt8) : Reader (Option Nat) :=
  if code = 0xC0 then pure none
  else if 0xA0 ≤ code ∧ code < 0xC0 then pure (some (code.toNat - 0xA0))
  else if code = 0xD9 ∨ code = 0xC4 then some <$> readWord 1
  else if code = 0xDA ∨ code = 0xC5 then some <$> readWord 2
  else if code = 0xDB ∨ code = 0xC6 then some <$> readWord 4
  else failure

def readRaw : Reader (List UInt8) := do
  match ← readBytesLength (← readByte) with
  | some n => readBytes n
  | none => return []

def readText : Reader Text := do
  return ⟨← readRaw⟩

/-- The length of an array; none for nothing. -/
def readArrayLength (code : UInt8) : Reader (Option Nat) :=
  if code = 0xC0 then pure none
  else if 0x90 ≤ code ∧ code < 0xA0 then pure (some (code.toNat - 0x90))
  else if code = 0xDC then some <$> readWord 2
  else if code = 0xDD then some <$> readWord 4
  else failure

/-- The length of a map; none for nothing. -/
def readMapLength (code : UInt8) : Reader (Option Nat) :=
  if code = 0xC0 then pure none
  else if 0x80 ≤ code ∧ code < 0x90 then pure (some (code.toNat - 0x80))
  else if code = 0xDE then some <$> readWord 2
  else if code = 0xDF then some <$> readWord 4
  else failure

/-- The number of bytes an extension code announces. -/
def readExtensionLength (code : UInt8) : Reader Nat :=
  if 0xD4 ≤ code ∧ code ≤ 0xD8 then pure (1 <<< (code.toNat - 0xD4))
  else if 0xC7 ≤ code ∧ code ≤ 0xC9 then readWord (1 <<< (code.toNat - 0xC7))
  else failure

def readMoment : Reader Instant := do
  let code ← readByte
  if code = 0xC0 then return {}
  let n ← readExtensionLength code
  if (← readByte) ≠ 0xFF then failure
  if n = 4 then return ⟨(← readWord 4 : Nat), 0⟩
  else if n = 8 then
    let v ← readWord 8
    return ⟨(v % 0x400000000 : Nat), v / 0x400000000⟩
  else if n = 12 then
    let nanos ← readWord 4
    return ⟨← readSigned 8, nanos⟩
  else failure

/-- Repeat a reader. -/
def times : Nat → Reader Unit → Reader Unit
  | 0, _ => pure ()
  | n + 1, r => do
    r
    times n r

/-- Read a value of any shape, at most `depth` levels deep, and forget it. -/
def skipWithin : Nat → Reader Unit
  | 0 => failure
  | depth + 1 => do
    let code ← readByte
    if code < 0x80 ∨ 0xE0 ≤ code ∨ code = 0xC0 ∨ code = 0xC2 ∨ code = 0xC3 then return
    else if code < 0x90 ∨ code = 0xDE ∨ code = 0xDF then
      times (2 * ((← readMapLength code).getD 0)) (skipWithin depth)
    else if code < 0xA0 ∨ code = 0xDC ∨ code = 0xDD then
      times ((← readArrayLength code).getD 0) (skipWithin depth)
    else if code < 0xC0 ∨ (0xC4 ≤ code ∧ code ≤ 0xC6) ∨ (0xD9 ≤ code ∧ code ≤ 0xDB) then
      discard (readBytes ((← readBytesLength code).getD 0))
    else if code = 0xCA then discard (readBytes 4)
    else if code = 0xCB then discard (readBytes 8)
    else if 0xCC ≤ code ∧ code ≤ 0xD3 then discard (readNumber code)
    else discard (readBytes ((← readExtensionLength code) + 1))

/-- Read a value of any shape and forget it. -/
def skip : Reader Unit := fun bs => skipWithin (bs.length + 1) bs

/-- Reads a value over an old one. -/
abbrev Update := Datum → Reader Datum

/-- Read `n` items over old ones; items beyond them are read over a zero. -/
def readItems (elem : Update) (zero : Datum) : Nat → List Datum → Reader (List Datum)
  | 0, _ => pure []
  | n + 1, old => do
    let item ← elem (old.headD zero)
    return item :: (← readItems elem zero n old.tail)

/-- Read `n` keys with their values over old fields. -/
def readEntries (readers : List (Text × Update)) : Nat → List Datum → Reader (List Datum)
  | 0, fields => pure fields
  | n + 1, fields => do
    let key ← readText
    match readers.zipIdx.find? fun (r, _) => r.1 = key with
    | some ((_, update), i) =>
      let v ← update (fields.getD i .nothing)
      readEntries readers n (fields.set i v)
    | none =>
      skip
      readEntries readers n fields

/-- Read all fields in order over old ones. -/
def readAll : List (Text × Update) → List Datum → Reader (List Datum)
  | [], _ => pure []
  | (_, update) :: readers, old => do
    let v ← update (old.headD .nothing)
    return v :: (← readAll readers old.tail)

/-- Read a record over old fields, given its zeros. -/
def readRecord (readers : List (Text × Update)) (zeros old : List Datum) : Reader (List Datum) := do
  let code ← readByte
  if (0x90 ≤ code ∧ code < 0xA0) ∨ code = 0xDC ∨ code = 0xDD then
    match ← readArrayLength code with
    | some 0 | none => return zeros
    | some n => if n = readers.length then readAll readers old else failure
  else
    match ← readMapLength code with
    | some n => readEntries readers n old
    | none => return zeros

/-- The fields of an old record, or zeros. -/
def oldFields (zeros : List Datum) : Datum → List Datum
  | .record vs => vs
  | _ => zeros

/-- Whether the next value is nothing. -/
def atNothing : Reader Bool := fun bs => some (bs.head? = some 0xC0, bs)

mutual

/-- Read a value of a shape over an old one. -/
def read : Shape → Update
  | .bool, _ => Datum.bool <$> readBool
  | .word bytes, _ => do
    let n ← readNumber (← readByte)
    return .num (n % (1 <<< (8 * bytes) : Nat))
  | .int64, _ => do
    let n ← readNumber (← readByte)
    return .num (Int64.ofInt n).toInt
  | .double, _ => Datum.double <$> readDouble
  | .text, _ => Datum.text <$> readText
  | .bytes, _ => Datum.bytes <$> readRaw
  | .moment, _ => Datum.moment <$> readMoment
  | .list elem, old => do
    match ← readArrayLength (← readByte) with
    | some n => return .list (← readItems (read elem) elem.zero n old.pool) (old.pool.drop n)
    | none =>
      match elem with
      | .text => return old
      | _ => return .list [] []
  | .record fields, old =>
    Datum.record <$> readRecord (readers fields) fields.zeros (oldFields fields.zeros old)
  | .optional fields, old => do
    if ← atNothing then
      discard readByte
      return .nothing
    Datum.record <$> readRecord (readers fields) fields.zeros (oldFields fields.zeros old)

/-- A reader for every field under its key. -/
def readers : Fields → List (Text × Update)
  | .nil => []
  | .cons key _ shape rest => (key, read shape) :: readers rest

end

/-- The bytes of a stored type's value. -/
def encode {α : Type} [Stored α] (x : α) : List UInt8 :=
  write (Stored.shape α) (toDatum x)

/-- Reads a stored type's value. -/
def decode (α : Type) [Stored α] : Reader α := do
  return ofDatum (← read (Stored.shape α) (Stored.shape α).zero)

end WasmBackend.Storage.MessagePack
