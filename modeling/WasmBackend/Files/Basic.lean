import WasmBackend.Path

/-!
# Files

What the build needs of a file system, as operations of a monad.  Every operation either succeeds
or tells which call failed at which path and why; nothing is hidden in exceptions.
-/

namespace WasmBackend

/-- Why a file operation failed. -/
inductive FileCause where
  | notExist
  | notDirectory
  | isDirectory
  | alreadyExists
  | notEmpty
  | nameTooLong
  /-- The path has a zero byte, or names a place that the operation cannot work on. -/
  | invalid
  | other (message : Text)
deriving DecidableEq, Repr, Inhabited

def FileCause.message : FileCause → Text
  | notExist => "no such file or directory"
  | notDirectory => "not a directory"
  | isDirectory => "is a directory"
  | alreadyExists => "file exists"
  | notEmpty => "directory not empty"
  | nameTooLong => "file name too long"
  | invalid => "invalid argument"
  | other t => t

/-- A failed file operation. -/
structure FileFault where
  operation : Text
  path : Text
  cause : FileCause
deriving DecidableEq, Repr, Inhabited

def FileFault.message (f : FileFault) : Text :=
  f.operation ++ " " ++ f.path ++ ": " ++ f.cause.message

/-- A file operation's result. -/
abbrev FileResult (α : Type) := Except FileFault α

/-- Monads with a file system. -/
class MonadFiles (m : Type → Type) where
  /-- The absolute path that relative paths start from. -/
  workingDirectory : m Text
  /-- Whether a path is a directory. -/
  isDirectory : Text → m (FileResult Bool)
  /-- The names in a directory, in order. -/
  names : Text → m (FileResult (List Text))
  readFile : Text → m (FileResult (List UInt8))
  /-- Write a file, which need not exist. -/
  writeFile : Text → List UInt8 → m (FileResult Unit)
  makeDirectory : Text → m (FileResult Unit)
  /-- Remove a file, or a directory with all that is in it. -/
  removeAll : Text → m (FileResult Unit)

export MonadFiles (workingDirectory isDirectory readFile writeFile makeDirectory removeAll)

namespace Files

variable {m : Type → Type} [Monad m] [MonadFiles m]

/-- The paths of the directories above a clean path and of itself, outermost first. -/
def ancestry (path : Text) : List Text :=
  let slashes := (List.range path.size).filter fun i => path.bytes[i]? == some 47
  (slashes.filter (0 < ·)).map (fun i => ⟨path.bytes.take i⟩) ++ [path]

/-- Make the directory of one path, unless it is there. -/
def ensureDirectory (path : Text) : m (FileResult Unit) := do
  match ← isDirectory path with
  | .ok true => return .ok ()
  | .ok false => return .error ⟨"mkdir", path, .notDirectory⟩
  | .error _ => makeDirectory path

/-- Make directories one after the other; the first failure ends it. -/
def ensureAll : List Text → m (FileResult Unit)
  | [] => return .ok ()
  | path :: rest => do
    match ← ensureDirectory path with
    | .ok () => ensureAll rest
    | .error e => return .error e

/-- Make the directory of a clean path and all directories above it. -/
def makeDirectories (path : Text) : m (FileResult Unit) := do
  match ← isDirectory path with
  | .ok true => return .ok ()
  | _ => ensureAll (ancestry path)

/-- The files at and below a path, directory by directory in the order of their names; the bound
is on the depth. -/
def filesWithin : Nat → Text → m (FileResult (List Text))
  | 0, path => return .error ⟨"open", path, .nameTooLong⟩
  | depth + 1, path => do
    match ← isDirectory path with
    | .error e => return .error e
    | .ok false => return .ok [path]
    | .ok true =>
      match ← MonadFiles.names path with
      | .error e => return .error e
      | .ok names =>
        let below ← names.mapM fun name => filesWithin depth (Path.join path name)
        return (below.mapM id).map List.flatten

/-- The files at and below a path; no tree is deeper than the longest path. -/
def filesBelow (path : Text) : m (FileResult (List Text)) :=
  filesWithin Path.sizeLimit path

end Files

end WasmBackend
