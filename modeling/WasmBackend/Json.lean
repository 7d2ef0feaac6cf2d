import WasmBackend.Text.Utf8

/-!
# JSON documents

Reports for tools are JSON.  Members are written in the order they are given.  Strings escape what
must not stand in a script (angle brackets, ampersands and the two line separators) besides what
the format asks for, and bytes that are no UTF-8 become replacement characters.
-/

namespace WasmBackend

/-- A JSON document. -/
inductive Json where
  | num (n : Int)
  | str (t : Text)
  | arr (items : List Json)
  | obj (members : List (Text × Json))
deriving Inhabited

namespace Json

/-- One character of a string. -/
def stringPiece (p : Piece) : Text :=
  let c := p.code
  if c = 34 then "\\\""
  else if c = 92 then "\\\\"
  else if c = 8 then "\\b"
  else if c = 12 then "\\f"
  else if c = 10 then "\\n"
  else if c = 13 then "\\r"
  else if c = 9 then "\\t"
  else if c < 0x20 ∨ c = 60 ∨ c = 62 ∨ c = 38 ∨ c = 0x2028 ∨ c = 0x2029 then "\\u" ++ Text.hex 4 c
  else ⟨Utf8.encode c⟩

/-- A string between its quotes. -/
def string (t : Text) : Text :=
  "\"" ++ Text.concat (t.pieces.map stringPiece) ++ "\""

mutual

/-- A document on one line. -/
def compact : Json → Text
  | num n => Text.ofInt n
  | str t => string t
  | arr items => "[" ++ compactItems items ++ "]"
  | obj members => "\x7b" ++ compactMembers members ++ "\x7d"

def compactItems : List Json → Text
  | [] => ""
  | [j] => j.compact
  | j :: rest => j.compact ++ "," ++ compactItems rest

def compactMembers : List (Text × Json) → Text
  | [] => ""
  | [(k, j)] => string k ++ ":" ++ j.compact
  | (k, j) :: rest => string k ++ ":" ++ j.compact ++ "," ++ compactMembers rest

end

/-- A new line at a depth of nesting. -/
def newline (depth : Nat) : Text :=
  "\n" ++ Text.replicate (2 * depth) 32

mutual

/-- A document with two blanks per depth of nesting; empty lists and objects stay closed. -/
def indented (depth : Nat) : Json → Text
  | num n => Text.ofInt n
  | str t => string t
  | arr [] => "[]"
  | arr items => "[" ++ indentedItems (depth + 1) items ++ newline depth ++ "]"
  | obj [] => "\x7b\x7d"
  | obj members => "\x7b" ++ indentedMembers (depth + 1) members ++ newline depth ++ "\x7d"

def indentedItems (depth : Nat) : List Json → Text
  | [] => ""
  | [j] => newline depth ++ j.indented depth
  | j :: rest => newline depth ++ j.indented depth ++ "," ++ indentedItems depth rest

def indentedMembers (depth : Nat) : List (Text × Json) → Text
  | [] => ""
  | [(k, j)] => newline depth ++ string k ++ ": " ++ j.indented depth
  | (k, j) :: rest =>
    newline depth ++ string k ++ ": " ++ j.indented depth ++ "," ++ indentedMembers depth rest

end

/-- A document as a file of its own: indented, with a final line break. -/
def document (j : Json) : Text :=
  j.indented 0 ++ "\n"

/-- A member that may be left out. -/
abbrev Member := Option (Text × Json)

/-- A member that is always written. -/
def member (key : Text) (value : Json) : Member :=
  some (key, value)

/-- A string member, left out when the string is empty. -/
def optionalStr (key value : Text) : Member :=
  if value.isEmpty then none else member key (str value)

/-- A number member, left out when the number is zero. -/
def optionalNum (key : Text) (value : Int) : Member :=
  if value = 0 then none else member key (num value)

/-- A list member, left out when the list is empty. -/
def optionalArr (key : Text) (items : List Json) : Member :=
  if items.isEmpty then none else member key (arr items)

/-- The object of the members that are there. -/
def ofMembers (members : List Member) : Json :=
  obj (members.filterMap id)

end Json

end WasmBackend
