/-!
# Texts as byte strings

Names, literals and messages travel through the back end as byte strings: a program may carry
bytes that are not valid UTF-8, and they have to reach the emitted module unchanged.  `Text` wraps
a list of bytes; string literals coerce into it through their UTF-8 encoding.
-/

namespace WasmBackend

/-- A byte string, by convention UTF-8 but not required to be. -/
structure Text where
  bytes : List UInt8
deriving DecidableEq, Repr, Inhabited

namespace Text

/-- The UTF-8 encoding of a string. -/
def ofString (s : String) : Text :=
  ⟨s.toByteArray.data.toList⟩

instance : Coe String Text := ⟨ofString⟩

instance : EmptyCollection Text := ⟨⟨[]⟩⟩

instance : Append Text := ⟨fun a b => ⟨a.bytes ++ b.bytes⟩⟩

@[simp]
theorem bytes_append (a b : Text) : (a ++ b).bytes = a.bytes ++ b.bytes := rfl

/-- The number of bytes. -/
def size (t : Text) : Nat :=
  t.bytes.length

/-- Whether there are no bytes at all. -/
def isEmpty (t : Text) : Bool :=
  t.bytes.isEmpty

/-- One text after another. -/
def concat (ts : List Text) : Text :=
  ⟨(ts.map bytes).flatten⟩

/-- The texts one after another with `sep` between neighbours. -/
def join (sep : Text) (ts : List Text) : Text :=
  concat (ts.intersperse sep)

/-- The text if a condition holds, and else nothing. -/
def onlyIf (condition : Prop) [Decidable condition] (t : Text) : Text :=
  if condition then t else {}

/-- `n` copies of a byte. -/
def replicate (n : Nat) (b : UInt8) : Text :=
  ⟨List.replicate n b⟩

/-- The decimal digits of a natural number. -/
def ofNat (n : Nat) : Text :=
  ofString (toString n)

/-- A decimal integer with a leading minus sign when negative. -/
def ofInt (n : Int) : Text :=
  if n < 0 then ofString "-" ++ ofNat n.natAbs else ofNat n.natAbs

/-- Whether `p` is an initial part of `t`. -/
def startsWith (t p : Text) : Bool :=
  p.bytes.isPrefixOf t.bytes

/-- Whether `p` is a final part of `t`. -/
def endsWith (t p : Text) : Bool :=
  p.bytes.isSuffixOf t.bytes

/-- The text without its final part `p`, or unchanged when it does not end so. -/
def dropSuffix (t p : Text) : Text :=
  if t.endsWith p then ⟨t.bytes.take (t.size - p.size)⟩ else t

/-- The pieces between occurrences of the byte `sep`; a text without one is a single piece. -/
def splitOn (t : Text) (sep : UInt8) : List Text :=
  (t.bytes.splitOn sep).map Text.mk

/-- The digits `0` to `f` of a number below sixteen. -/
def hexDigit (n : Nat) : UInt8 :=
  if n < 10 then (48 + n).toUInt8 else (87 + n).toUInt8

/-- A number in lowercase hexadecimal, filled up with zeros to `width` digits. -/
def hex (width n : Nat) : Text :=
  let digits := (Nat.toDigits 16 n).map fun c => c.toNat.toUInt8
  ⟨List.replicate (width - digits.length) 48 ++ digits⟩

/-- The text as a string when its bytes are valid UTF-8. -/
def toString? (t : Text) : Option String :=
  String.fromUTF8? ⟨t.bytes.toArray⟩

/-- Bytewise lexicographic order. -/
def lt (a b : Text) : Bool :=
  a.bytes.lex b.bytes

end Text

/-- Two lowercase hexadecimal digits per byte. -/
def hexOfBytes (bytes : List UInt8) : Text :=
  ⟨bytes.flatMap fun b => [Text.hexDigit (b.toNat / 16), Text.hexDigit (b.toNat % 16)]⟩

/-- The value of a hexadecimal digit in either case. -/
def hexValue? (b : UInt8) : Option Nat :=
  if 48 ≤ b && b ≤ 57 then some (b.toNat - 48)
  else if 97 ≤ b && b ≤ 102 then some (b.toNat - 87)
  else if 65 ≤ b && b ≤ 70 then some (b.toNat - 55)
  else none

/-- The bytes written by pairs of hexadecimal digits. -/
def bytesOfHex? : List UInt8 → Option (List UInt8)
  | [] => some []
  | [_] => none
  | a :: b :: rest => do
    let hi ← hexValue? a
    let lo ← hexValue? b
    let tail ← bytesOfHex? rest
    return (16 * hi + lo).toUInt8 :: tail

end WasmBackend
