import WasmBackend.Build.Progress
import WasmBackend.Compilation
import WasmBackend.Files.Basic
import WasmBackend.Program.Stored
import WasmBackend.Sha256

/-!
# Building inputs

Inputs are built one after the other and share nothing: what goes wrong with one never touches the
others.  A module that the cache holds under the key of its program and options is taken from
there; a module that is built without errors is put there.
-/

namespace WasmBackend

/-!
## Entries of the build cache

A built module is kept under a key that covers everything its bytes depend on: the program and the
options that reach the module.  Only builds without diagnostics are kept, so an entry holds the
module and nothing to report.
-/

open Storage

/-- The version of the entries written here; entries of another version are not used. -/
def cacheSchema : UInt16 := 1

/-- The lowest `count` bytes of a number, least significant first. -/
def littleEndian (count n : Nat) : List UInt8 :=
  (List.range count).map fun i => (n >>> (8 * i)).toUInt8

/-- The bytes that a key is the hash of. -/
def cacheKeySource (p : Program) (o : CompileOptions) : List UInt8 :=
  littleEndian 2 cacheSchema.toNat ++ littleEndian 4 o.memory.min.toNat
    ++ littleEndian 4 o.memory.max.toNat ++ o.entryExport.bytes ++ [0] ++ p.encode

/-- The key of a program under options. -/
def cacheKey (p : Program) (o : CompileOptions) : Text :=
  hexOfBytes (Sha256.hash (cacheKeySource p o))

instance : Stored DeadCode.Removed := storedRecord {}
  [fixedColumn "Instrs" (fun r : DeadCode.Removed => Int64.ofNat r.instrs)
      fun v r => { r with instrs := v.toInt.toNat },
    fixedColumn "Copies" (fun r : DeadCode.Removed => Int64.ofNat r.copies)
      fun v r => { r with copies := v.toInt.toNat },
    fixedColumn "Blocks" (fun r : DeadCode.Removed => Int64.ofNat r.blocks)
      fun v r => { r with blocks := v.toInt.toNat }]

/-- What the cache keeps of a build. -/
structure CacheEntry where
  schema : UInt16 := 0
  module : List UInt8 := []
  removed : DeadCode.Removed := {}
  created : Instant := {}
deriving Inhabited

/-- The bytes of a module as a field. -/
def CacheEntry.moduleColumn : Column CacheEntry where
  key := "module"
  always := true
  shape := .bytes
  get e := .bytes e.module
  set
    | .bytes bs, e => { e with module := bs }
    | _, e => e

instance : Stored CacheEntry := storedRecord {}
  [fixedColumn "schema" CacheEntry.schema fun v e => { e with schema := v },
    CacheEntry.moduleColumn,
    fixedColumn "stats" CacheEntry.removed fun v e => { e with removed := v },
    fixedColumn "created" CacheEntry.created fun v e => { e with created := v }]

namespace CacheEntry

/-- The bytes of an entry's file. -/
def encode (e : CacheEntry) : List UInt8 :=
  MessagePack.encode { e with schema := cacheSchema }

/-- The entry in a file, unless it is broken or of another version. -/
def decode? (bytes : List UInt8) : Option CacheEntry := do
  let (e, _) ← MessagePack.decode CacheEntry bytes
  guard (e.schema = cacheSchema)
  return e

end CacheEntry

/-! ## Builds -/

/-- Why an input gives no module although its source may be right. -/
inductive BuildFailure where
  /-- The file cannot be opened. -/
  | unopened (path : Text) (fault : FileFault)
  /-- The file is not a program. -/
  | unreadable (path : Text) (error : ProgramFileError) (fault : Option FileFault)
  /-- A phase broke off. -/
  | stopped (path : Text) (failure : Failure)
deriving DecidableEq, Repr

/-- What a failure that breaks off a phase is called. -/
def Failure.message : Failure → Text
  | internal m => "internal compiler error: " ++ m
  | canceled => "context canceled"
  | fault => "internal compiler error: missing node"
  | exhausted => "internal compiler error: recursion too deep"

def BuildFailure.message : BuildFailure → Text
  | unopened path fault => "load " ++ path ++ ": " ++ fault.message
  | unreadable path error fault =>
    "load " ++ path ++ ": " ++ error.message ++ Text.concat (fault.toList.map (": " ++ ·.message))
  | stopped path failure => path ++ ": " ++ failure.message

structure BuildOptions where
  compile : CompileOptions := {}
  /-- The directory of the cache, if one is used. -/
  cache : Option Text := none
  /-- Whether the build is cancelled before it starts. -/
  canceled : Bool := false

/-- The outcome for one input. -/
structure BuildResult where
  path : Text
  module : Option (List UInt8) := none
  bag : Bag := {}
  /-- The source files that spans in the bag refer to. -/
  files : FileTable := {}
  cached : Bool := false
  /-- The phases that ran, each with whether it failed. -/
  phases : List (Text × Bool) := []
  failure : Option BuildFailure := none
deriving Inhabited

namespace BuildResult

/-- How the build of an input ended. -/
def status (r : BuildResult) : BuildStatus :=
  if r.failure.isSome || r.module.isNone then .failed
  else if r.cached then .cached
  else .done

/-- What was told about an input after it was queued. -/
def events (r : BuildResult) : List BuildEvent :=
  (r.phases.map fun p => { path := r.path, phase := p.1, status := .working })
    ++ [{ path := r.path, status := r.status }]

end BuildResult

/-- The file of a cache entry. -/
def cachePath (dir key : Text) : Text :=
  Path.join (Path.join dir "mods") (key ++ ".mp")

variable {m : Type → Type} [Monad m] [MonadFiles m]

/-- Read a program. -/
def loadProgram (path : Text) : m (Except BuildFailure Program) := do
  match ← readFile path with
  | .error fault =>
    if fault.cause = .isDirectory then
      return .error (.unreadable path .brokenHeader (some fault))
    else return .error (.unopened path fault)
  | .ok bytes =>
    match Program.decode bytes with
    | .ok p => return .ok p
    | .error e => return .error (.unreadable path e none)

/-- The module that the cache holds under a key. -/
def cachedModule? (dir key : Text) : m (Option (List UInt8)) := do
  match ← readFile (cachePath dir key) with
  | .ok bytes => return (CacheEntry.decode? bytes).map CacheEntry.module
  | .error _ => return none

/-- Put a module into the cache; that this may fail does not matter. -/
def keepModule (dir key : Text) (module : List UInt8) (removed : DeadCode.Removed) : m Unit := do
  let _ ← Files.makeDirectories (m := m) (Path.join dir "mods")
  let entry : CacheEntry := { module := module, removed := removed }
  let _ ← writeFile (m := m) (cachePath dir key) entry.encode

/-- Compile a program that was read. -/
def compileInput (path : Text) (p : Program) (o : BuildOptions) (tracer : Trace.Tracer) :
    m (BuildResult × Trace.Tracer) := do
  let key := cacheKey p o.compile
  let (result, c) := compile p o.compile tracer
  let r : BuildResult :=
    { path := path, bag := c.bag, files := p.files
      phases := ("load", false) :: c.phases.map fun (p, failed) => (p.name, failed) }
  match result with
  | .error e => return ({ r with failure := some (.stopped path e) }, c.tracer)
  | .ok built =>
    let module := built.module.map Wasm.Module.encode
    if let (some dir, some bytes) := (o.cache, module) then keepModule dir key bytes built.removed
    return ({ r with module := module }, c.tracer)

/-- Build one input. -/
def buildInput (path : Text) (o : BuildOptions) (tracer : Trace.Tracer) :
    m (BuildResult × Trace.Tracer) := do
  let empty := Bag.ofLimit o.compile.maxDiagnostics
  match ← loadProgram path with
  | .error e =>
    return ({ path := path, bag := empty, phases := [("load", true)], failure := some e }, tracer)
  | .ok p =>
    let found ←
      match o.cache with
      | some dir => cachedModule? dir (cacheKey p o.compile)
      | none => pure none
    match found with
    | some module =>
      return ({ path := path, bag := empty, files := p.files, module := some module,
                cached := true, phases := [("load", false)] }, tracer)
    | none => compileInput path p o tracer

/-- Build inputs one after the other. -/
def buildInputs (o : BuildOptions) : List Text → Trace.Tracer → m (List BuildResult × Trace.Tracer)
  | [], tracer => return ([], tracer)
  | path :: rest, tracer => do
    let (r, tracer) ← buildInput path o tracer
    let (rs, tracer) ← buildInputs o rest tracer
    return (r :: rs, tracer)

/-- Build all inputs, unless the build is cancelled. -/
def buildAll (paths : List Text) (o : BuildOptions) (tracer : Trace.Tracer := {}) :
    m (Option (List BuildResult × Trace.Tracer)) := do
  if o.canceled && !paths.isEmpty then return none
  return some (← buildInputs o paths tracer)

/-- What was told during a build, in order. -/
def buildEvents (results : List BuildResult) : List BuildEvent :=
  (results.map fun r => { path := r.path, status := .queued }) ++ results.flatMap BuildResult.events

/-- Remove all entries of a cache. -/
def dropCache (dir : Text) : m (FileResult Unit) := do
  match ← removeAll (m := m) dir with
  | .error e => return .error e
  | .ok () => Files.makeDirectories dir

end WasmBackend
