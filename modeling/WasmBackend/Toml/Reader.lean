import WasmBackend.Toml.Value

/-!
# Reading TOML

A document is read into statements: headers and assignments in the order they are written.  What
the statements mean together, and whether they contradict one another, is decided afterwards.
-/

namespace WasmBackend.Toml

/-- A value as it is written. -/
inductive Written where
  | string (t : Text)
  | integer (n : Int)
  | bool (b : Bool)
  | float
  | moment
  | array (items : List Written)
  | table (entries : List (Key × Written))
deriving Inhabited

/-- A statement of a document. -/
inductive Statement where
  | table (key : Key)
  | tableArray (key : Key)
  | assign (key : Key) (value : Written)
deriving Inhabited

/-- A reader takes something off the front. -/
abbrev Reader (α : Type) := Chars → Option (α × Chars)

/-! ## Characters -/

/-- Whether a character is a control character other than tab and line breaks. -/
def isControl (c : Nat) : Bool :=
  (c < 0x20 && c != 9 && c != 10 && c != 13) || c == 0x7F

def isBlank (c : Nat) : Bool :=
  c == 32 || c == 9

def isNewline (c : Nat) : Bool :=
  c == 10 || c == 13

/-- Whether no control character occurs and every carriage return is followed by a line feed. -/
def isClean : Chars → Bool
  | [] => true
  | [c] => !isControl c && c != 13
  | c :: d :: rest => !isControl c && (c != 13 || d == 10) && isClean (d :: rest)

/-- The text without a byte-order mark. -/
def dropMark : List UInt8 → List UInt8
  | 0xFF :: 0xFE :: rest => rest
  | 0xFE :: 0xFF :: rest => rest
  | 0xEF :: 0xBB :: 0xBF :: rest => rest
  | bytes => bytes

/-- The characters of a document; bytes that are no UTF-8, replacement characters and control
characters are refused. -/
def chars? (t : Text) : Option Chars := do
  let cs ← (Text.mk (dropMark t.bytes)).pieces.mapM fun p =>
    match p with
    | .char c => some c
    | .bad _ => none
  guard (isClean cs ∧ 0xFFFD ∉ cs)
  return cs

/-- The text of characters. -/
def textOf (cs : Chars) : Text :=
  ⟨cs.flatMap Utf8.encode⟩

/-! ## Strings -/

/-- The character behind a backslash and a letter. -/
def escaped? (c : Nat) : Option Nat :=
  match c with
  | 98 => some 8
  | 116 => some 9
  | 110 => some 10
  | 102 => some 12
  | 114 => some 13
  | 34 => some 34
  | 92 => some 92
  | _ => none

/-- The character of a number in hexadecimal digits. -/
def codePoint? (ds : Chars) : Option Nat := do
  let n := numberOf 16 (← ds.mapM digitValue?)
  guard (n < 0xD800 ∨ (0xDFFF < n ∧ n ≤ 0x10FFFF))
  return n

/-- Put a character in front of what is read. -/
def consFst (c : Nat) (x : Option (Chars × Chars)) : Option (Chars × Chars) :=
  x.map fun (s, rest) => (c :: s, rest)

/-- The body of a string on one line, behind its opening quote. -/
def basicBody : Chars → Option (Chars × Chars)
  | 92 :: 117 :: a :: b :: c :: d :: rest => do consFst (← codePoint? [a, b, c, d]) (basicBody rest)
  | 92 :: 85 :: a :: b :: c :: d :: e :: f :: g :: h :: rest => do
    consFst (← codePoint? [a, b, c, d, e, f, g, h]) (basicBody rest)
  | 92 :: e :: rest => do consFst (← escaped? e) (basicBody rest)
  | 34 :: rest => some ([], rest)
  | c :: rest => if isNewline c then none else consFst c (basicBody rest)
  | [] => none

/-- The body of a string over several lines, behind its opening quotes.  Behind a backslash at the
end of a line everything up to the next visible character is left out, which `skipping` tells.  Up
to two quotes may stand in front of the closing ones, and three right behind an escaped backslash. -/
def multilineBody (skipping : Bool) : Chars → Option (Chars × Chars)
  | 92 :: 92 :: 34 :: 34 :: 34 :: 34 :: 34 :: 34 :: rest =>
    if rest.head? = some 34 then none else some ([92, 34, 34, 34], rest)
  | 34 :: 34 :: 34 :: 34 :: 34 :: 34 :: _ => none
  | 34 :: 34 :: 34 :: 34 :: 34 :: rest => some ([34, 34], rest)
  | 34 :: 34 :: 34 :: 34 :: rest => some ([34], rest)
  | 34 :: 34 :: 34 :: rest => some ([], rest)
  | 92 :: 117 :: a :: b :: c :: d :: rest => do
    consFst (← codePoint? [a, b, c, d]) (multilineBody false rest)
  | 92 :: 85 :: a :: b :: c :: d :: e :: f :: g :: h :: rest => do
    consFst (← codePoint? [a, b, c, d, e, f, g, h]) (multilineBody false rest)
  | 92 :: e :: rest =>
    if isBlank e || isNewline e then
      if ((e :: rest).takeWhile fun c => isBlank c || isNewline c).contains 10 then
        multilineBody true rest
      else none
    else do consFst (← escaped? e) (multilineBody false rest)
  | c :: rest =>
    if skipping && (isBlank c || isNewline c) then multilineBody true rest
    else consFst c (multilineBody false rest)
  | [] => none

/-- The body of a string on one line that knows no escapes, behind its opening quote. -/
def literalBody : Chars → Option (Chars × Chars)
  | 39 :: rest => some ([], rest)
  | c :: rest => if isNewline c then none else consFst c (literalBody rest)
  | [] => none

/-- The body of a string over several lines that knows no escapes, behind its opening quotes. -/
def multilineLiteralBody : Chars → Option (Chars × Chars)
  | 39 :: 39 :: 39 :: 39 :: 39 :: 39 :: _ => none
  | 39 :: 39 :: 39 :: 39 :: 39 :: rest => some ([39, 39], rest)
  | 39 :: 39 :: 39 :: 39 :: rest => some ([39], rest)
  | 39 :: 39 :: 39 :: rest => some ([], rest)
  | c :: rest => consFst c (multilineLiteralBody rest)
  | [] => none

/-- A line break right behind the opening quotes does not count. -/
def dropFirstNewline : Chars → Chars
  | 10 :: rest => rest
  | 13 :: 10 :: rest => rest
  | cs => cs

/-- A string of any kind. -/
def readString : Reader Text := fun cs =>
  let body :=
    match cs with
    | 34 :: 34 :: 34 :: rest => multilineBody false (dropFirstNewline rest)
    | 34 :: rest => basicBody rest
    | 39 :: 39 :: 39 :: rest => multilineLiteralBody (dropFirstNewline rest)
    | 39 :: rest => literalBody rest
    | _ => none
  body.map fun (s, rest) => (textOf s, rest)

/-! ## Keys -/

/-- One part of a key, bare or between quotes. -/
def readKeyPart : Reader Text := fun cs =>
  match cs.dropWhile isBlank with
  | 34 :: rest => (basicBody rest).map fun (s, rest) => (textOf s, rest)
  | 39 :: rest => (literalBody rest).map fun (s, rest) => (textOf s, rest)
  | cs =>
    let name := cs.takeWhile isBareKeyChar
    if name.isEmpty then none else some (textOf name, cs.drop name.length)

/-- Parts between dots; the bound is the number of characters left. -/
def readKeyWithin : Nat → Reader Key
  | 0, _ => none
  | bound + 1, cs => do
    let (part, rest) ← readKeyPart cs
    match rest.dropWhile isBlank with
    | 46 :: rest =>
      let (parts, rest) ← readKeyWithin bound rest
      return (part :: parts, rest)
    | rest => return ([part], rest)

/-- A dotted key and the blanks behind it. -/
def readKey : Reader Key := fun cs =>
  readKeyWithin cs.length cs

/-! ## Values -/

/-- Whether a character may stand in a number or a word. -/
def isWordChar (c : Nat) : Bool :=
  isBareKeyChar c || c == 43 || c == 46

/-- Whether a character may stand in a moment. -/
def isMomentChar (c : Nat) : Bool :=
  isDigit c || [45, 58, 84, 116, 32, 46, 90, 122, 43].contains c

/-- Whether what follows is a moment rather than a number: digits, and behind them a hyphen or a
colon. -/
def startsMoment (cs : Chars) : Bool :=
  let ds := cs.takeWhile isDigit
  match cs.drop ds.length with
  | c :: _ => (c == 45 || c == 58) && !ds.isEmpty && ds != [48]
  | [] => false

/-- A number, a moment or a truth value. -/
def readScalar : Reader Written := fun cs =>
  if startsMoment cs then
    let token := cs.takeWhile isMomentChar
    let trimmed := (token.reverse.dropWhile (· == 32)).reverse
    if isMoment trimmed then some (.moment, cs.drop token.length) else none
  else
    let token := cs.takeWhile isWordChar
    let rest := cs.drop token.length
    if token = ascii "true" then some (.bool true, rest)
    else if token = ascii "false" then some (.bool false, rest)
    else
      match integer? token with
      | some n => some (.integer n, rest)
      | none => if isFloat token then some (.float, rest) else none

/-- What follows a comment. -/
def dropComment (cs : Chars) : Chars :=
  cs.dropWhile fun c => !isNewline c

/-- What follows blanks, line breaks and comments. -/
def dropFiller : Nat → Chars → Chars
  | 0, cs => cs
  | bound + 1, cs =>
    match cs.dropWhile fun c => isBlank c || isNewline c with
    | 35 :: rest => dropFiller bound (dropComment rest)
    | rest => rest

mutual

/-- A value; the bound is the number of characters left, which every part of it takes some of. -/
def readValueWithin : Nat → Reader Written
  | 0, _ => none
  | bound + 1, cs =>
    match cs.dropWhile isBlank with
    | 91 :: rest => do
      let (items, rest) ← readItems bound rest
      return (.array items, rest)
    | 123 :: rest => do
      match rest.dropWhile isBlank with
      | 125 :: rest => return (.table [], rest)
      | rest =>
        let (entries, rest) ← readEntries bound rest
        return (.table entries, rest)
    | c :: rest =>
      if c = 34 ∨ c = 39 then (readString (c :: rest)).map fun (t, rest) => (.string t, rest)
      else readScalar (c :: rest)
    | [] => none

/-- The items of an array behind its bracket or a comma, up to and with its closing bracket. -/
def readItems : Nat → Reader (List Written)
  | 0, _ => none
  | bound + 1, cs =>
    match dropFiller cs.length cs with
    | 93 :: rest => some ([], rest)
    | cs => do
      let (item, rest) ← readValueWithin bound cs
      match dropFiller rest.length rest with
      | 44 :: rest =>
        let (items, rest) ← readItems bound rest
        return (item :: items, rest)
      | 93 :: rest => return ([item], rest)
      | _ => none

/-- The entries of an inline table, which is on one line and has no comma at its end. -/
def readEntries : Nat → Reader (List (Key × Written))
  | 0, _ => none
  | bound + 1, cs => do
    let (key, rest) ← readKey cs
    let (value, rest) ← readValueWithin bound (← expect? 61 rest)
    match rest.dropWhile isBlank with
    | 44 :: rest =>
      let (entries, rest) ← readEntries bound rest
      return ((key, value) :: entries, rest)
    | 125 :: rest => return ([(key, value)], rest)
    | _ => none

end

/-! ## Statements -/

/-- What follows the end of a statement: a comment or nothing, and a line break or the end. -/
def endLine? (cs : Chars) : Option Chars :=
  match cs.dropWhile isBlank with
  | [] => some []
  | 35 :: rest => some (dropComment rest)
  | c :: rest => if isNewline c then some rest else none

/-- One statement. -/
def readStatement : Reader Statement := fun cs =>
  match cs with
  | 91 :: 91 :: rest => do
    let (key, rest) ← readKey rest
    return (.tableArray key, ← expect? 93 (← expect? 93 rest))
  | 91 :: rest => do
    let (key, rest) ← readKey rest
    return (.table key, ← expect? 93 rest)
  | _ => do
    let (key, rest) ← readKey cs
    let (value, rest) ← readValueWithin rest.length (← expect? 61 rest)
    return (.assign key value, rest)

/-- The statements of a document; the bound is the number of characters left. -/
def readStatements : Nat → Chars → Option (List Statement)
  | 0, _ => some []
  | bound + 1, cs =>
    match dropFiller cs.length cs with
    | [] => some []
    | cs => do
      let (s, rest) ← readStatement cs
      return s :: (← readStatements bound (← endLine? rest))

/-- The statements of a text. -/
def statements? (t : Text) : Option (List Statement) := do
  let cs ← chars? t
  readStatements (cs.length + 1) cs

end WasmBackend.Toml
