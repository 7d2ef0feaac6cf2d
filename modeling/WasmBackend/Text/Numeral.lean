import WasmBackend.Text

/-!
# Numerals

A numeral is written in decimal, or behind `0b`, `0o` and `0x` in binary, octal and hexadecimal; a
plain leading zero means octal too.  Single underscores may stand between digits and behind such a
mark.  Digits are read from the left, and a number that has left its range is out of range whatever
follows.
-/

namespace WasmBackend

/-- Why a text is no number of a range. -/
inductive NumeralError where
  | invalidSyntax
  | outOfRange
deriving DecidableEq, Repr

def NumeralError.message : NumeralError → Text
  | invalidSyntax => "invalid syntax"
  | outOfRange => "value out of range"

namespace Numeral

/-- The value of a digit or a letter of either case. -/
def digitValue? (b : UInt8) : Option Nat :=
  if 48 ≤ b ∧ b ≤ 57 then some (b.toNat - 48)
  else if 65 ≤ b ∧ b ≤ 90 then some (b.toNat - 55)
  else if 97 ≤ b ∧ b ≤ 122 then some (b.toNat - 87)
  else none

/-- The base that a letter behind a zero stands for. -/
def baseOfLetter? (b : UInt8) : Option Nat :=
  if b = 98 ∨ b = 66 then some 2
  else if b = 111 ∨ b = 79 then some 8
  else if b = 120 ∨ b = 88 then some 16
  else none

/-- The base of a numeral, whether a letter marks it, and the digits behind the mark. -/
def splitBase : List UInt8 → Nat × Bool × List UInt8
  | 48 :: letter :: digit :: rest =>
    match baseOfLetter? letter with
    | some base => (base, true, digit :: rest)
    | none => (8, false, letter :: digit :: rest)
  | 48 :: rest => (8, false, rest)
  | digits => (10, false, digits)

/-- Read digits behind a number already read; the number stays within the limit. -/
def digitsFrom (base limit : Nat) : Nat → List UInt8 → Except NumeralError Nat
  | n, [] => .ok n
  | n, b :: rest =>
    if b = 95 then digitsFrom base limit n rest
    else
      match digitValue? b with
      | none => .error .invalidSyntax
      | some d =>
        if base ≤ d then .error .invalidSyntax
        else if limit < n * base + d then .error .outOfRange
        else digitsFrom base limit (n * base + d) rest

/-- Whether every underscore stands between digits, given whether a digit stands before. -/
def separated (behindDigit : Bool) : List UInt8 → Bool
  | [] => true
  | b :: rest =>
    if b = 95 then behindDigit && !rest.isEmpty && separated false rest else separated true rest

/-- The number without a sign that a text is, up to a limit. -/
def natural (limit : Nat) (t : List UInt8) : Except NumeralError Nat := do
  if t.isEmpty then throw .invalidSyntax
  let (base, marked, digits) := splitBase t
  let n ← digitsFrom base limit 0 digits
  let octal := base = 8 && !marked
  if separated (marked || octal) digits then return n else throw .invalidSyntax

/-- The number of 32 bits that a text is. -/
def word (t : Text) : Except NumeralError UInt32 := do
  return (← natural 4294967295 t.bytes).toUInt32

/-- The signed number of 64 bits that a text is. -/
def integer (t : Text) : Except NumeralError Int := do
  let (negative, digits) :=
    match t.bytes with
    | 43 :: rest => (false, rest)
    | 45 :: rest => (true, rest)
    | digits => (false, digits)
  let n ← natural 18446744073709551615 digits
  if negative then
    if n ≤ 9223372036854775808 then return -(n : Int) else throw .outOfRange
  else if n < 9223372036854775808 then return n
  else throw .outOfRange

end Numeral

end WasmBackend
