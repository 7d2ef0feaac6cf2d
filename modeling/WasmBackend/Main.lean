import WasmBackend.CommandLine.Session

/-!
# The tool

Runs the tool on the real file system: arguments and environment go in, the two texts of the run
come out, and the exit code tells whether it succeeded.
-/

namespace WasmBackend

/-- A text as a string, bad bytes replaced. -/
def Text.shown (t : Text) : String :=
  t.scrubbed.toString?.getD ""

/-- The bytes of a text as they are written to a stream. -/
def Text.toByteArray (t : Text) : ByteArray :=
  ⟨t.bytes.toArray⟩

/-- The cause of a failed call of the system. -/
def FileCause.ofError : IO.Error → FileCause
  | .noFileOrDirectory .. => .notExist
  | .alreadyExists .. => .alreadyExists
  | .inappropriateType _ _ details =>
    if details.toLower = "is a directory" then .isDirectory else .notDirectory
  | .invalidArgument _ _ details =>
    if details.toLower = "file name too long" then .nameTooLong else .invalid
  | .unsatisfiedConstraints .. => .notEmpty
  | .permissionDenied .. => .other "permission denied"
  | e => .other (toString e)

/-- Carry out a call and report how it failed. -/
def attempt {α : Type} (operation path : Text) (call : IO α) : IO (FileResult α) := do
  try
    return .ok (← call)
  catch e =>
    return .error ⟨operation, path, .ofError e⟩

/-- Whether a path is a directory on the real file system. -/
def isRealDirectory (path : Text) : IO Bool := do
  let node := (← IO.currentDir) / path.shown
  return (← node.metadata).type == .dir

instance : MonadFiles IO where
  workingDirectory := return Text.ofString (← IO.currentDir).toString
  isDirectory path := attempt "stat" path (isRealDirectory path)
  names path := attempt "open" path do
    let node := (← IO.currentDir) / path.shown
    let names := (← node.readDir).toList.map fun entry => Text.ofString entry.fileName
    return names.mergeSort fun a b => !(b.lt a)
  readFile path := do
    let result ← attempt "open" path (IO.FS.readBinFile path.shown)
    return (result.map fun bytes => bytes.data.toList).mapError fun fault =>
      if fault.cause = .isDirectory then { fault with operation := "read" } else fault
  writeFile path bytes :=
    attempt "open" path (IO.FS.writeBinFile path.shown (Text.mk bytes).toByteArray)
  makeDirectory path := attempt "mkdir" path (IO.FS.createDir path.shown)
  removeAll path := do
    let result ← attempt "unlinkat" path do
      if ← isRealDirectory path then IO.FS.removeDirAll path.shown
      else IO.FS.removeFile path.shown
    match result with
    | .error ⟨_, _, .notExist⟩ => return .ok ()
    | other => return other

/-- A variable of the environment; empty if it is not set. -/
def variableText (name : String) : IO Text := do
  return Text.ofString ((← IO.getEnv name).getD "")

end WasmBackend

open WasmBackend in
/-- Run the tool; the exit code is 0 or 1. -/
def main (arguments : List String) : IO UInt32 := do
  let output ← IO.getStdout
  let env : Environment :=
    { cacheHome := ← variableText "XDG_CACHE_HOME"
      home := ← variableText "HOME"
      isTerminal := ← output.isTty }
  let outcome ← runTool (arguments.map Text.ofString) env
  output.write outcome.transcript.shown.toByteArray
  (← IO.getStderr).write outcome.transcript.remarks.toByteArray
  return if outcome.succeeded then 0 else 1
