import WasmBackend.Compilation
import WasmBackend.Files.Glob
import WasmBackend.Text.Lowercase
import WasmBackend.Text.Printable
import WasmBackend.Toml.Document

/-!
# Project manifests

A project is described by a TOML file `keel.toml`: the memory of its modules, where they are
written, and which inputs are built.  The nearest manifest above a directory counts; without one
the defaults do.
-/

namespace WasmBackend

/-- The settings of a project. -/
structure Manifest where
  memory : Wasm.MemoryLimits := {}
  entryExport : Text := defaultEntryExport
  /-- Where modules are written, below the project's directory unless it is absolute. -/
  outputDir : Text := "."
  /-- Files, directories or patterns that are built. -/
  roots : List Text := []
  /-- How many inputs are compiled at a time; 0 for as many as the machine can. -/
  jobs : Int := 0
  useCache : Bool := true
  /-- The directory of the manifest; empty without one. -/
  root : Text := ""
deriving DecidableEq, Repr, Inhabited

/-- Why a project's settings or inputs cannot be used. -/
inductive ManifestError where
  /-- The manifest cannot be read. -/
  | unreadable (path : Text) (fault : FileFault)
  /-- The manifest is no TOML, or a value has the wrong type. -/
  | malformed (path : Text)
  | unknownKey (path : Text) (key : Toml.Key)
  /-- A value is out of range; the manifest is named if the value was read from it. -/
  | invalidValue (path : Option Text) (reason : Text)
  | badPattern (root : Text)
  | missingRoot (root : Text)
  | unreachable (fault : FileFault)
  /-- Looking for a manifest failed. -/
  | searchFailed (fault : FileFault)
deriving DecidableEq, Repr

/-- The name of a manifest. -/
def manifestName : Text := "keel.toml"

def ManifestError.message : ManifestError → Text
  | unreadable path fault => path ++ ": failed to parse TOML: " ++ fault.message
  | malformed path => path ++ ": failed to parse TOML"
  | unknownKey path key => path ++ ": unknown key " ++ (Toml.renderKey key).quoted
  | invalidValue path reason =>
    Text.concat (path.toList.map (· ++ ": ")) ++ "invalid value: " ++ reason
  | badPattern root => "build root " ++ root.quoted ++ ": syntax error in pattern"
  | missingRoot root => "build root " ++ root.quoted ++ ": file does not exist"
  | unreachable fault => fault.message
  | searchFailed fault => "look for " ++ manifestName ++ ": " ++ fault.message

namespace Manifest

/-! ## Values -/

/-- The largest memory a module can have, in pages. -/
def maxPages : Nat := 65536

/-- What is wrong with the ranges of the values, if anything is. -/
def fault? (c : Manifest) : Option Text :=
  if c.memory.min = 0 then some "[memory].min_pages must be at least 1"
  else if c.memory.max < c.memory.min then
    some ("[memory].max_pages " ++ Text.ofNat c.memory.max.toNat ++ " is below min_pages "
      ++ Text.ofNat c.memory.min.toNat)
  else if maxPages < c.memory.max.toNat then
    some ("[memory].max_pages exceeds " ++ Text.ofNat maxPages)
  else if c.entryExport.isEmpty then some "[output].entry_export is empty"
  else if c.jobs < 0 then some "[build].jobs is negative"
  else none

/-- Refuse values that are out of range. -/
def validate (c : Manifest) : Except ManifestError Unit :=
  match c.fault? with
  | some reason => .error (.invalidValue none reason)
  | none => .ok ()

/-! ## Reading -/

/-- A setting takes a value of its type. -/
abbrev Setting := Toml.Value → Manifest → Option Manifest

def pages? : Toml.Value → Option UInt32
  | .integer n => if 0 ≤ n ∧ n < 4294967296 then some n.toNat.toUInt32 else none
  | _ => none

def text? : Toml.Value → Option Text
  | .string t => some t
  | _ => none

/-- The sections of a manifest with their settings. -/
def sections : List (Text × List (Text × Setting)) :=
  [("memory",
    [("min_pages", fun v c => do return { c with memory.min := ← pages? v }),
      ("max_pages", fun v c => do return { c with memory.max := ← pages? v })]),
    ("output",
      [("entry_export", fun v c => do return { c with entryExport := ← text? v }),
        ("dir", fun v c => do return { c with outputDir := ← text? v })]),
    ("build",
      [("roots", fun v c =>
          match v with
          | .array items => do return { c with roots := ← items.mapM text? }
          | _ => none),
        ("jobs", fun v c =>
          match v with
          | .integer n => some { c with jobs := n }
          | _ => none),
        ("cache", fun v c =>
          match v with
          | .bool b => some { c with useCache := b }
          | _ => none)])]

/-- The form of a key in which case does not count; two letters outside ASCII count as the letters
they look like. -/
def folded (t : Text) : Text :=
  ⟨t.pieces.flatMap fun p =>
    let c := p.code
    if c = 0x17F then [115]
    else if c = 0x212A then [107]
    else if 65 ≤ c ∧ c ≤ 90 then [(c + 32).toUInt8]
    else p.bytes⟩

/-- The entry of a key: its own, or else the first that differs only in case. -/
def entryFor? {α : Type} (entries : List (Text × α)) (key : Text) : Option α :=
  (entries.lookup key).or ((entries.find? fun e => folded e.1 = folded key).map Prod.snd)

/-- Settings under way, with the keys that were understood. -/
abbrev Reading := Manifest × List Toml.Key

/-- Take in one value of a section. -/
def readField (heading : Text) (settings : List (Text × Setting)) (r : Reading)
    (field : Text × Toml.Value) : Option Reading :=
  match entryFor? settings field.1 with
  | none => some r
  | some setting => do return (← setting field.2 r.1, [heading, field.1] :: r.2)

/-- Take in one section. -/
def readSection (r : Reading) (field : Text × Toml.Value) : Option Reading :=
  match entryFor? sections field.1 with
  | none => some r
  | some settings =>
    match field.2 with
    | .table fields => fields.foldlM (readField field.1 settings) (r.1, [field.1] :: r.2)
    | _ => none

/-- The settings of a manifest's text.  A least size of memory without a largest one raises that
with it. -/
def ofText (path t : Text) : Except ManifestError Manifest := do
  let some doc := Toml.Document.parse? t | throw (.malformed path)
  let some (c, understood) := doc.fields.foldlM readSection ({}, []) | throw (.malformed path)
  if let some key := doc.mentioned.find? fun k => !understood.contains k then throw (.unknownKey path key)
  let raised :=
    doc.isDefined ["memory", "min_pages"] && !doc.isDefined ["memory", "max_pages"]
  let c := if raised then { c with memory.max := c.memory.min } else c
  let c := { c with entryExport := c.entryExport.trim, root := Path.dir path }
  match c.fault? with
  | some reason => throw (.invalidValue (some path) reason)
  | none => return c

variable {m : Type → Type} [Monad m] [MonadFiles m]

/-- Load the manifest at a path. -/
def load (path : Text) : m (Except ManifestError Manifest) := do
  match ← readFile path with
  | .ok bytes => return ofText path ⟨bytes⟩
  | .error fault => return .error (.unreadable path fault)

/-- The directories from a clean absolute path up to the root. -/
def upwards (dir : Text) : List Text :=
  let parts := Path.parts dir
  (List.range (parts.length + 1)).map fun i =>
    "/" ++ Text.join "/" (parts.take (parts.length - i))

/-- The first path that exists. -/
def firstExisting : List Text → m (FileResult (Option Text))
  | [] => return .ok none
  | path :: rest => do
    match ← isDirectory path with
    | .ok _ => return .ok (some path)
    | .error fault => if fault.cause = .notExist then firstExisting rest else return .error fault

/-- The nearest manifest in a directory or above it. -/
def find (start : Text) : m (Except ManifestError (Option Text)) := do
  let dir := Path.absolute (← workingDirectory) (if start.isEmpty then "." else start)
  let found ← firstExisting ((upwards dir).map fun d => Path.join d manifestName)
  return found.mapError .searchFailed

/-- Load the nearest manifest; `none` if there is none and the defaults count. -/
def discover (start : Text) : m (Except ManifestError (Option Manifest)) := do
  match ← find start with
  | .error e => return .error e
  | .ok none => return .ok none
  | .ok (some path) => return (← load path).map some

/-! ## Inputs and outputs -/

/-- The extension of inputs. -/
def inputExt : Text := ".kast"

/-- A path as seen from the project. -/
def resolve (c : Manifest) (p : Text) : Text :=
  if Path.isAbsolute p || c.root.isEmpty then p else Path.join c.root p

/-- The files that a path stands for: itself, or the inputs below a directory. -/
def collect (path : Text) : m (Except ManifestError (List Text)) := do
  match ← isDirectory path with
  | .error fault => return .error (.unreachable fault)
  | .ok false => return .ok [path]
  | .ok true =>
    match ← Files.filesBelow path with
    | .error fault => return .error (.unreachable fault)
    | .ok files => return .ok (files.filter fun f => f.endsWith inputExt)

/-- Collect the files of paths one after the other. -/
def collectAll : List Text → m (Except ManifestError (List Text))
  | [] => return .ok []
  | path :: rest => do
    match ← collect path with
    | .error e => return .error e
    | .ok files => return (← collectAll rest).map (files ++ ·)

/-- The files of one root, which stays inside the project. -/
def rootInputs (c : Manifest) (root : Text) : m (Except ManifestError (List Text)) := do
  let pattern := c.resolve root.trim
  if !c.root.isEmpty && !Path.isWithin c.root pattern then
    return .error (.invalidValue none ("build root " ++ root.quoted ++ " escapes " ++ c.root))
  match ← Glob.expand? pattern with
  | none => return .error (.badPattern root)
  | some [] => return .error (.missingRoot root)
  | some paths => collectAll paths

/-- The files of roots one after the other. -/
def allInputs (c : Manifest) : List Text → m (Except ManifestError (List Text))
  | [] => return .ok []
  | root :: rest => do
    match ← c.rootInputs root with
    | .error e => return .error e
    | .ok files => return (← allInputs c rest).map (files ++ ·)

/-- The inputs of the project, in order and each once. -/
def inputs (c : Manifest) : m (Except ManifestError (List Text)) := do
  let files ← c.allInputs c.roots
  return files.map fun fs => (fs.mergeSort fun a b => !(b.lt a)).eraseReps

/-- Where the module of an input is written: under the input's name in the output directory. -/
def outputPath (c : Manifest) (input : Text) : Text :=
  let base := (Path.base input).dropSuffix (Path.ext input)
  Path.join (c.resolve c.outputDir) (base ++ ".wasm")

end Manifest

end WasmBackend
