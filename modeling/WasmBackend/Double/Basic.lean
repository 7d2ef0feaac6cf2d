/-!
# Binary floating-point words

A `Double` is the 64-bit pattern of an IEEE-754 number.  The back end never computes with such
numbers, it only carries them and converts between formats; each conversion is exact integer
arithmetic on sign, exponent and fraction, with ties going to the even neighbour.
-/

namespace WasmBackend

/-- A 64-bit floating-point number by its bits. -/
structure Double where
  bits : UInt64
deriving DecidableEq, Repr, Inhabited

namespace Double

/-- Positive zero. -/
def zero : Double := ⟨0⟩

def isNegative (d : Double) : Bool :=
  d.bits >>> 63 == 1

/-- The biased exponent field. -/
def exponentField (d : Double) : Nat :=
  ((d.bits >>> 52) &&& 0x7FF).toNat

/-- The fraction field. -/
def fraction (d : Double) : Nat :=
  (d.bits &&& 0xFFFFFFFFFFFFF).toNat

def isNaN (d : Double) : Bool :=
  d.exponentField == 0x7FF && d.fraction != 0

def isInfinite (d : Double) : Bool :=
  d.exponentField == 0x7FF && d.fraction == 0

/-- Whether the number equals zero, of either sign. -/
def isZero (d : Double) : Bool :=
  d.exponentField == 0 && d.fraction == 0

/-- A finite number's magnitude is `m * 2 ^ q` for this pair `(m, q)`. -/
def magnitude (d : Double) : Nat × Int :=
  if d.exponentField = 0 then (d.fraction, -1074)
  else (d.fraction + 0x10000000000000, (d.exponentField : Int) - 1075)

/-- The quotient `n / 2 ^ k` rounded to the nearest integer, a tie to the even one. -/
def roundShift (n k : Nat) : Nat :=
  let q := n >>> k
  let r := n - (q <<< k)
  let unit := 1 <<< k
  if 2 * r < unit then q
  else if unit < 2 * r then q + 1
  else if q % 2 = 0 then q else q + 1

/-- The bits of `m * 2 ^ q` rounded into a format with `width` fraction bits and least exponent
`least` of the last place; a carry moves into the exponent field by itself.  `top` is the
exponent field of infinity. -/
def pack (width : Nat) (least : Int) (top : Nat) (m : Nat) (q : Int) : Nat :=
  if m = 0 then 0
  else
    let length := Nat.log2 m + 1
    let place := max least (q + length - (width + 1))
    let scaled := if place ≤ q then m <<< (q - place).toNat else roundShift m (place - q).toNat
    let field := (place - least).toNat
    let bits := if scaled < 1 <<< width then scaled else (field <<< width) + scaled
    min bits (top <<< width)

/-- The number nearest to an integer. -/
def ofInt (n : Int) : Double :=
  let bits := (pack 52 (-1074) 0x7FF n.natAbs 0).toUInt64
  ⟨if n < 0 then bits ||| 0x8000000000000000 else bits⟩

/-- The number nearest to `n / d`, for a positive `d`: enough bits of the quotient and one more bit
for what it leaves. -/
def ofRatio (n : Int) (d : Nat) : Double :=
  let shift := 64 + Nat.log2 d
  let scaled := n.natAbs <<< shift
  let rest := if scaled % d = 0 then 0 else 1
  let bits := (pack 52 (-1074) 0x7FF (2 * (scaled / d) + rest) (-1 - (shift : Int))).toUInt64
  ⟨if n < 0 then bits ||| 0x8000000000000000 else bits⟩

/-- The bits of the nearest 32-bit number; a NaN keeps its sign and leading payload and becomes
quiet. -/
def toSingle (d : Double) : UInt32 :=
  let sign : Nat := if d.isNegative then 0x80000000 else 0
  let body :=
    if d.exponentField = 0x7FF then
      if d.fraction = 0 then 0x7F800000
      else 0x7FC00000 ||| (d.fraction >>> 29)
    else
      let (m, q) := d.magnitude
      pack 23 (-149) 0xFF m q
  (sign + body).toUInt32

/-- The number a 32-bit pattern stands for; a NaN becomes quiet. -/
def ofSingle (bits : UInt32) : Double :=
  let sign : Nat := if bits >>> 31 == 1 then 0x8000000000000000 else 0
  let field := ((bits >>> 23) &&& 0xFF).toNat
  let fraction := (bits &&& 0x7FFFFF).toNat
  let body :=
    if field = 0xFF then
      if fraction = 0 then 0x7FF0000000000000
      else 0x7FF8000000000000 ||| (fraction <<< 29)
    else if field = 0 then pack 52 (-1074) 0x7FF fraction (-149)
    else pack 52 (-1074) 0x7FF (fraction + 0x800000) ((field : Int) - 150)
  ⟨(sign + body).toUInt64⟩

end Double

end WasmBackend
