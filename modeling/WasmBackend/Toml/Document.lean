import WasmBackend.Toml.Reader

/-!
# TOML documents

The statements of a document are carried out one after the other.  A key is set once: tables that
were only implied by a longer key may still be opened by a header, and a key that holds an array
may be set again.
-/

namespace WasmBackend.Toml

/-- A document under way. -/
structure Builder where
  root : Fields := []
  /-- Tables that exist only because a longer key went through them. -/
  implied : List Key := []
  /-- Keys that hold an array. -/
  arrays : List Key := []
  /-- The keys of headers and assignments, newest first. -/
  mentioned : List Key := []
deriving Inhabited

namespace Builder

/-- A step fails where it contradicts an earlier one. -/
abbrev M := StateT Builder Option

def imply (key : Key) : M Unit :=
  modify fun b => { b with implied := key :: b.implied.filter (· ≠ key) }

def mention (key : Key) : M Unit :=
  modify fun b => { b with mentioned := key :: b.mentioned }

/-- The key whose kind is noted: an empty last part stands for the table it is in. -/
def kindKey (context : Key) (key : Text) : Key :=
  if !key.isEmpty then context ++ [key] else if context.isEmpty then [""] else context

/-- Note whether a key holds an array. -/
def noteKind (context : Key) (key : Text) (isArray : Bool) : M Unit :=
  modify fun b =>
    let k := kindKey context key
    let others := b.arrays.filter (· ≠ k)
    { b with arrays := if isArray then k :: others else others }

/-- Set a key in an open table. -/
def setValue (context : Key) (key : Text) (v : Value) : M Unit := do
  let b ← get
  let full := context ++ [key]
  let fields ← Fields.at? context b.root
  let written := Fields.modifyAt context (fun fs => fs.set key v) b.root
  let settled := b.implied.filter (· ≠ full)
  if (fields.lookup key).isNone then set { b with root := written }
  else if full ∈ b.arrays then set { b with root := written, implied := settled }
  else if full ∈ b.implied then set { b with implied := settled }
  else failure

/-- Go through the tables of a path, making those that are missing. -/
def openParents (path : Key) : M Unit := do
  let missing ← Fields.missing? path (← get).root
  let done := path.take (path.length - missing.length)
  (List.range missing.length).forM fun i => imply (done ++ missing.take (i + 1))
  modify fun b =>
    { b with root := Fields.modifyAt done (fun fs => fs ++ Fields.along missing) b.root }

/-- Open the table of a key, as the next one of an array of tables if `append` says so. -/
def openTable (key : Key) (append : Bool) : M Unit := do
  let parents := key.dropLast
  let last := key.getLastD ""
  openParents parents
  if append then
    let fields ← Fields.at? parents (← get).root
    let rows ←
      match fields.lookup last with
      | none => pure []
      | some (.tables rows) => pure rows
      | some _ => failure
    modify fun b =>
      { b with
        root := Fields.modifyAt parents (fun fs => fs.set last (.tables (rows ++ [[]]))) b.root }
  else setValue parents last (.table [])

/-- Open the tables that a dotted key goes through below a table; the result is the last of
them. -/
def openDotted (context : Key) : Key → M Key
  | [] => pure context
  | k :: rest => do
    let inner := context ++ [k]
    imply inner
    openTable inner false
    openDotted inner rest

/-- Set a key whose value is known. -/
def assign (context : Key) (key : Text) (v : Value) : M Unit := do
  setValue context key v
  noteKind context key (v matches .array _)

mutual

/-- The value of what is written for a key.  The entries of an inline table are set below that key
on the way, so that they take part in the rules for repeated keys. -/
def value (context : Key) (key : Text) (inArray : Bool) : Written → M Value
  | .string t => pure (.string t)
  | .integer n => pure (.integer n)
  | .bool b => pure (.bool b)
  | .float => pure .float
  | .moment => pure .moment
  | .array items => do
    noteKind context key true
    return .array (← values context key items)
  | .table written => do
    let inner := context ++ [key]
    imply inner
    openTable inner inArray
    return .table (← entries inner [] written)

/-- The values of the items of an array. -/
def values (context : Key) (key : Text) : List Written → M (List Value)
  | [] => pure []
  | w :: rest => do
    let v ← value context key true w
    return v :: (← values context key rest)

/-- The fields of an inline table, added to those read so far.  Only the last part of a dotted key
names a field here; the tables it goes through are those of the document. -/
def entries (context : Key) (fields : Fields) : List (Key × Written) → M Fields
  | [] => pure fields
  | (key, w) :: rest => do
    let last := key.getLastD ""
    let inner ← openDotted context key.dropLast
    mention (inner ++ [last])
    let v ← value inner last false w
    assign inner last v
    entries context (fields.set last v) rest

end

/-- Carry out a statement; the result is the table that following assignments go into. -/
def statement (context : Key) : Statement → M Key
  | .table key => do
    openTable key false
    noteKind key "" false
    mention key
    return key
  | .tableArray key => do
    openTable key true
    noteKind key "" false
    mention key
    return key
  | .assign key w => do
    let last := key.getLastD ""
    let inner ← openDotted context key.dropLast
    mention (inner ++ [last])
    let v ← value inner last false w
    assign inner last v
    return context

end Builder

/-- A document: its fields, and all keys that headers and assignments mention, in order. -/
structure Document where
  fields : Fields := []
  mentioned : List Key := []
deriving Inhabited

namespace Document

/-- The document a text writes. -/
def parse? (t : Text) : Option Document := do
  let ss ← statements? t
  let (_, b) ← (ss.foldlM Builder.statement ([] : Key)).run {}
  return { fields := b.root, mentioned := b.mentioned.reverse }

/-- Whether a path of keys leads to a value through tables. -/
def isDefined (d : Document) : Key → Bool := fun key => go key d.fields
where
  go : Key → Fields → Bool
    | [], _ => true
    | [k], fs => (fs.lookup k).isSome
    | k :: rest, fs =>
      match fs.lookup k with
      | some (.table inner) => go rest inner
      | _ => false

end Document

end WasmBackend.Toml
