import WasmBackend.Text.Utf8

/-!
# Values of a TOML document

A table maps keys to values in the order they were first set.  Arrays that are written as values
and arrays of tables that are written as headers are told apart, because only the latter grow.
Numbers with a point and moments are recognised but carry nothing: no setting has such a value.
-/

namespace WasmBackend.Toml

/-- The parts of a dotted key. -/
abbrev Key := List Text

/-- Whether a character may stand in a key without quotes. -/
def isBareKeyChar (c : Nat) : Bool :=
  (65 ≤ c && c ≤ 90) || (97 ≤ c && c ≤ 122) || (48 ≤ c && c ≤ 57) || c == 95 || c == 45

/-- A character between the double quotes of a key. -/
def quotedKeyChar (p : Piece) : Text :=
  match p.code with
  | 34 => "\\\""
  | 92 => "\\\\"
  | 8 => "\\b"
  | 9 => "\\t"
  | 10 => "\\n"
  | 12 => "\\f"
  | 13 => "\\r"
  | c => if c < 0x20 ∨ c = 0x7F then "\\u" ++ Text.hex 4 c else ⟨p.bytes⟩

/-- A part of a key as it is written, between quotes only where it has to be. -/
def renderKeyPart (t : Text) : Text :=
  if !t.isEmpty && t.pieces.all fun p => isBareKeyChar p.code then t
  else "\"" ++ Text.concat (t.pieces.map quotedKeyChar) ++ "\""

/-- A dotted key as it is written. -/
def renderKey (k : Key) : Text :=
  Text.join "." (k.map renderKeyPart)

/-- A value of a document. -/
inductive Value where
  | string (t : Text)
  | integer (n : Int)
  | bool (b : Bool)
  | float
  | moment
  | array (items : List Value)
  | table (fields : List (Text × Value))
  /-- Tables that headers have added one after the other. -/
  | tables (rows : List (List (Text × Value)))
deriving Inhabited

/-- The fields of a table in the order they were first set. -/
abbrev Fields := List (Text × Value)

namespace Fields

/-- Set a field, in its old place if it has one. -/
def set (fs : Fields) (key : Text) (v : Value) : Fields :=
  if fs.any fun f => f.1 = key then fs.map fun f => if f.1 = key then (key, v) else f
  else fs ++ [(key, v)]

/-- The table a path of keys leads to; an array of tables leads to its last one. -/
def at? : Key → Fields → Option Fields
  | [], fs => some fs
  | k :: rest, fs =>
    match fs.lookup k with
    | some (.table inner) => at? rest inner
    | some (.tables rows) => rows.getLast?.bind (at? rest)
    | _ => none

/-- The end of a path of keys for which there is no table yet; a path through something other than
a table leads nowhere. -/
def missing? : Key → Fields → Option Key
  | [], _ => some []
  | k :: rest, fs =>
    match fs.lookup k with
    | none => some (k :: rest)
    | some (.table inner) => missing? rest inner
    | some (.tables rows) => rows.getLast?.bind (missing? rest)
    | some _ => none

/-- Tables inside one another along a path of keys. -/
def along : Key → Fields
  | [] => []
  | k :: rest => [(k, .table (along rest))]

/-- Change the table a path of keys leads to. -/
def modifyAt : Key → (Fields → Fields) → Fields → Fields
  | [], f, fs => f fs
  | k :: rest, f, fs =>
    match fs.lookup k with
    | some (.table inner) => fs.set k (.table (modifyAt rest f inner))
    | some (.tables rows) =>
      fs.set k (.tables (rows.dropLast ++ rows.getLast?.toList.map (modifyAt rest f)))
    | _ => fs

end Fields

/-!
## Numbers and moments of a TOML document

Integers are decimal with an optional sign, or hexadecimal, octal or binary behind a prefix mark;
single underscores may stand between digits.  Numbers with a point or an exponent and moments are
checked for their form and range.
-/

/-- Characters by their code points. -/
abbrev Chars := List Nat

/-- The code points of an ASCII string. -/
def ascii (s : String) : Chars :=
  s.toList.map Char.toNat

def isDigit (c : Nat) : Bool :=
  48 ≤ c && c ≤ 57

/-- The value of a hexadecimal digit. -/
def digitValue? (c : Nat) : Option Nat :=
  if c < 256 then hexValue? c.toUInt8 else none

/-- The digits without the underscores between them, each digit below `base`; underscores have a
digit on both sides. -/
def digits? (base : Nat) (cs : Chars) : Option (List Nat) :=
  let groups := cs.splitOn 95
  if groups.all fun g => !g.isEmpty then
    groups.flatten.mapM fun c => (digitValue? c).filter (· < base)
  else none

/-- The number of digits in a base. -/
def numberOf (base : Nat) (ds : List Nat) : Nat :=
  ds.foldl (fun n d => n * base + d) 0

/-- Whether digits have a zero in front that means nothing. -/
def hasLeadingZero (cs : Chars) : Bool :=
  cs.length > 1 && cs.head? == some 48

/-- A sign and what follows it. -/
def splitSign (cs : Chars) : Bool × Chars :=
  match cs with
  | 45 :: rest => (true, rest)
  | 43 :: rest => (false, rest)
  | _ => (false, cs)

/-- A number within 64 bits. -/
def inRange? (n : Int) : Option Int :=
  if -9223372036854775808 ≤ n ∧ n ≤ 9223372036854775807 then some n else none

/-- The integer that a token writes. -/
def integer? (cs : Chars) : Option Int :=
  match cs with
  | 48 :: 120 :: rest => do inRange? (numberOf 16 (← digits? 16 rest))
  | 48 :: 111 :: rest => do inRange? (numberOf 8 (← digits? 8 rest))
  | 48 :: 98 :: rest => do inRange? (numberOf 2 (← digits? 2 rest))
  | _ =>
    let (negative, body) := splitSign cs
    if hasLeadingZero body then none
    else do
      let n : Int := numberOf 10 (← digits? 10 body)
      inRange? (if negative then -n else n)

/-- A list before and behind the first character that meets a condition, which is left out. -/
def cutAt (p : Nat → Bool) (cs : Chars) : Chars × Option Chars :=
  match cs.dropWhile fun c => !p c with
  | [] => (cs, none)
  | _ :: rest => (cs.takeWhile fun c => !p c, some rest)

/-- Whether `digits * 10 ^ exponent` is below the first number too large for 64 bits. -/
def isFinite (digits : List Nat) (exponent : Int) : Bool :=
  let digits := digits.dropWhile (· == 0)
  let point := digits.length + exponent
  if digits.isEmpty || point < 309 then true
  else if 309 < point then false
  else
    let n := numberOf 10 digits
    let limit := 0x3FFFFFFFFFFFFF <<< 970
    if 0 ≤ exponent then n * Nat.pow 10 exponent.toNat < limit
    else n < limit * Nat.pow 10 (-exponent).toNat

/-- The number that the digits of an exponent count as: once it has reached ten thousand, further
digits no longer change it. -/
def exponentOf (ds : List Nat) : Nat :=
  ds.foldl (fun n d => if n < 10000 then n * 10 + d else n) 0

/-- Whether a token writes a number with a point or an exponent. -/
def isFloat (cs : Chars) : Bool :=
  let (_, body) := splitSign cs
  if body = ascii "inf" ∨ body = ascii "nan" then true
  else
    let (mantissa, exponent) := cutAt (fun c => c == 101 || c == 69) body
    let (whole, fraction) := cutAt (· == 46) mantissa
    let checked : Option Bool := do
      let ws ← digits? 10 whole
      let fs ← (fraction.map (digits? 10)).getD (some [])
      let (negative, es) := splitSign (exponent.getD [48])
      let e : Int := exponentOf (← digits? 10 es)
      let e := (if negative then -e else e) - fs.length
      return !hasLeadingZero whole && (exponent.isSome || fraction.isSome) && isFinite (ws ++ fs) e
    checked.getD false

/-! ## Moments -/

/-- A number of exactly `count` digits in front. -/
def fixedNumber? (count : Nat) (cs : Chars) : Option (Nat × Chars) :=
  let ds := cs.take count
  if ds.length = count ∧ ds.all isDigit then some (numberOf 10 (ds.map (· - 48)), cs.drop count)
  else none

/-- What follows a character that has to stand in front. -/
def expect? (c : Nat) : Chars → Option Chars
  | d :: rest => if c = d then some rest else none
  | [] => none

/-- The number of days of a month. -/
def daysIn (year month : Nat) : Nat :=
  if month = 2 then (if year % 4 = 0 ∧ (year % 100 ≠ 0 ∨ year % 400 = 0) then 29 else 28)
  else if month = 4 ∨ month = 6 ∨ month = 9 ∨ month = 11 then 30
  else 31

/-- What follows a date. -/
def date? (cs : Chars) : Option Chars := do
  let (year, cs) ← fixedNumber? 4 cs
  let (month, cs) ← fixedNumber? 2 (← expect? 45 cs)
  let (day, cs) ← fixedNumber? 2 (← expect? 45 cs)
  guard (1 ≤ month ∧ month ≤ 12 ∧ 1 ≤ day ∧ day ≤ daysIn year month)
  return cs

/-- What follows a time of day; the hour may have one digit. -/
def time? (cs : Chars) : Option Chars := do
  let (hour, cs) ← (fixedNumber? 2 cs).orElse fun _ => fixedNumber? 1 cs
  let (minute, cs) ← fixedNumber? 2 (← expect? 58 cs)
  let (second, cs) ← fixedNumber? 2 (← expect? 58 cs)
  guard (hour < 24 ∧ minute < 60 ∧ second < 60)
  match cs with
  | 46 :: d :: rest => if isDigit d then return rest.dropWhile isDigit else return cs
  | _ => return cs

/-- What follows a distance from universal time. -/
def offset? : Chars → Option Chars
  | 90 :: rest => some rest
  | sign :: rest => do
    guard (sign = 43 ∨ sign = 45)
    let (hour, rest) ← fixedNumber? 2 rest
    let (minute, rest) ← fixedNumber? 2 (← expect? 58 rest)
    guard (hour ≤ 24 ∧ minute ≤ 60)
    return rest
  | [] => none

/-- Whether a token writes a date, a time of day, or both with or without a distance from universal
time; a blank may divide date and time. -/
def isMoment (cs : Chars) : Bool :=
  let cs := cs.map fun c => if c = 116 ∨ c = 32 then 84 else if c = 122 then 90 else c
  match date? cs with
  | some [] => true
  | some (84 :: rest) =>
    match time? rest with
    | some [] => true
    | some rest => offset? rest == some []
    | none => false
  | some _ => false
  | none => time? cs == some []

end WasmBackend.Toml
