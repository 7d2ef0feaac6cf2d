import WasmBackend.Files.Basic

/-!
# File trees

A file system as a value: the nodes of a tree by the parts of their path.  The root is always a
directory.  With it everything that works on files can be run and reasoned about without any.
-/

namespace WasmBackend

/-- What a path names. -/
inductive FileNode where
  | file (bytes : List UInt8)
  | directory
deriving DecidableEq, Repr, Inhabited

/-- The parts of a path from the root. -/
abbrev Location := List Text

/-- A file system with a working directory. -/
structure FileTree where
  cwd : Location := []
  nodes : List (Location × FileNode) := []
deriving Repr, Inhabited

namespace FileTree

def node? (t : FileTree) (l : Location) : Option FileNode :=
  if l = [] then some .directory else t.nodes.lookup l

/-- Put a node at a location. -/
def put (t : FileTree) (l : Location) (n : FileNode) : FileTree :=
  { t with nodes := t.nodes.filter (fun x => x.1 ≠ l) ++ [(l, n)] }

/-- Follow the parts of a path; every part but the last goes out from a directory. -/
def follow (t : FileTree) (l : Location) : List Text → Except FileCause Location
  | [] => .ok l
  | part :: rest =>
    match t.node? l with
    | some .directory =>
      if Path.partLimit < part.size then .error .nameTooLong
      else if part = "." then t.follow l rest
      else if part = ".." then t.follow l.dropLast rest
      else t.follow (l ++ [part]) rest
    | some (.file _) => .error .notDirectory
    | none => .error .notExist

/-- The location of a path; a slash at its end asks for a directory. -/
def locate (t : FileTree) (path : Text) : Except FileCause Location :=
  if path.bytes.contains 0 then .error .invalid
  else if path.isEmpty then .error .notExist
  else if Path.sizeLimit ≤ path.size then .error .nameTooLong
  else
    let start := if Path.isAbsolute path then [] else t.cwd
    t.follow start (Path.parts path ++ if path.endsWith "/" then [Text.ofString "."] else [])

/-- The node of a path. -/
def find (t : FileTree) (path : Text) : Except FileCause FileNode := do
  match t.node? (← t.locate path) with
  | some n => return n
  | none => throw .notExist

/-- The names of the nodes right below a location, in order. -/
def children (t : FileTree) (l : Location) : List Text :=
  let names := (t.nodes.filter fun x => x.1.dropLast = l ∧ x.1 ≠ []).filterMap fun x =>
    x.1.getLast?
  names.mergeSort fun a b => !(b.lt a)

/-- Name the call and the path of a failure. -/
def blame {α : Type} (operation path : Text) (x : Except FileCause α) : FileResult α :=
  x.mapError fun c => ⟨operation, path, c⟩

def isDirectory (t : FileTree) (path : Text) : FileResult Bool := do
  return (← blame "stat" path (t.find path)) == .directory

def names (t : FileTree) (path : Text) : FileResult (List Text) := do
  match ← blame "open" path (t.find path) with
  | .directory => return t.children (← blame "open" path (t.locate path))
  | .file _ => throw ⟨"readdirent", path, .notDirectory⟩

def readFile (t : FileTree) (path : Text) : FileResult (List UInt8) := do
  match ← blame "open" path (t.find path) with
  | .file bytes => return bytes
  | .directory => throw ⟨"read", path, .isDirectory⟩

/-- Whether the node above a location is a directory, so that it can be made. -/
def checkParent (t : FileTree) (l : Location) : Except FileCause Unit :=
  match t.node? l.dropLast with
  | some .directory => .ok ()
  | some (.file _) => .error .notDirectory
  | none => .error .notExist

/-- The path without slashes at its end; the root keeps its own. -/
def withoutSlashes (path : Text) : Text :=
  let trimmed : Text := ⟨(path.bytes.reverse.dropWhile (· == 47)).reverse⟩
  if trimmed.isEmpty then path else trimmed

/-- Write a file; a path with a slash at its end can only name a directory. -/
def writeFile (t : FileTree) (path : Text) (bytes : List UInt8) : FileResult FileTree :=
  blame "open" path do
    let l ← t.locate (withoutSlashes path)
    t.checkParent l
    if path.endsWith "/" ∨ t.node? l = some .directory then throw .isDirectory
    return t.put l (.file bytes)

def makeDirectory (t : FileTree) (path : Text) : FileResult FileTree :=
  blame "mkdir" path do
    let l ← t.locate (withoutSlashes path)
    if (t.node? l).isSome then throw .alreadyExists
    t.checkParent l
    return t.put l .directory

/-- Remove a file or an empty directory. -/
def remove (t : FileTree) (path : Text) : FileResult FileTree :=
  blame "remove" path do
    let l ← t.locate path
    match t.node? l with
    | none => throw .notExist
    | some (.file _) => pure ()
    | some .directory =>
      if Path.base path = "." then throw .invalid
      if Path.base path = ".." ∨ t.children l ≠ [] then throw .notEmpty
    return { t with nodes := t.nodes.filter fun x => x.1 ≠ l }

/-- Remove a node with all below it; what is not there is not missed. -/
def removeAll (t : FileTree) (path : Text) : FileTree :=
  match t.locate path with
  | .ok l => { t with nodes := t.nodes.filter fun x => !l.isPrefixOf x.1 }
  | .error _ => t

/-- Keep the tree that a change gives. -/
def update (f : FileTree → FileResult FileTree) : StateM FileTree (FileResult Unit) := do
  match f (← get) with
  | .ok t => set t; return .ok ()
  | .error e => return .error e

instance : MonadFiles (StateM FileTree) where
  workingDirectory := return "/" ++ Text.join "/" (← get).cwd
  isDirectory path := return (← get).isDirectory path
  names path := return (← get).names path
  readFile path := return (← get).readFile path
  writeFile path bytes := update fun t => t.writeFile path bytes
  makeDirectory path := update fun t => t.makeDirectory path
  removeAll path := update fun t => .ok (t.removeAll path)

/-! ## Whole trees -/

/-- The tree with a directory and all directories above it; what is in the way stays. -/
def addDirectory (t : FileTree) (path : Text) : FileTree :=
  (Files.makeDirectories (m := StateM FileTree) path t).2

/-- The tree with a file and all directories above it. -/
def addFile (t : FileTree) (path : Text) (bytes : List UInt8) : FileTree :=
  let t := t.addDirectory (Path.dir path)
  (t.writeFile path bytes).toOption.getD t

/-- The bytes of a file. -/
def content? (t : FileTree) (path : Text) : Option (List UInt8) :=
  (t.readFile path).toOption

/-- The paths of all files below a directory, from there and in order. -/
def filePaths (t : FileTree) (dir : Text) : List Text :=
  let found := ((Files.filesBelow (m := StateM FileTree) dir t).1).toOption.getD []
  (found.map fun p => ⟨p.bytes.drop (dir.size + 1)⟩).mergeSort fun a b => !(b.lt a)

end FileTree

end WasmBackend
