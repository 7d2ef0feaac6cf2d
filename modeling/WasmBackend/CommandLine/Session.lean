import WasmBackend.Build.Run
import WasmBackend.CommandLine.Help
import WasmBackend.Diagnostic.Report
import WasmBackend.Ir.Listing
import WasmBackend.Manifest
import WasmBackend.Timing
import WasmBackend.Trace.Sink
import WasmBackend.Version

/-!
# Running the tool

A run reads its arguments, writes files, and leaves two texts behind: what it shows and what it
complains about.  It ends at the first error; what was written up to there stays.  Everything is
said over a monad with files, so a run can be carried out on a real file system or on a value.
-/

namespace WasmBackend

/-- What a run finds around it. -/
structure Environment where
  /-- The directory for caches; empty if none is set. -/
  cacheHome : Text := ""
  /-- The directory of the user; empty if unknown. -/
  home : Text := ""
  /-- Whether what is shown goes to a terminal. -/
  isTerminal : Bool := false
  version : VersionInfo := {}
deriving DecidableEq, Repr, Inhabited

/-- What a run wrote: the text it shows and the text about its course. -/
structure Transcript where
  shown : Text := ""
  remarks : Text := ""
deriving DecidableEq, Repr, Inhabited

/-- Why a run fails. -/
inductive RunError where
  | flags (cause : FlagError)
  | unknownCommand (given : Text)
  /-- A command that takes no arguments got one. -/
  | unexpected (command : Command) (given : Text)
  | argumentCount (expected received : Nat)
  | colorMode (given : Text)
  | trace (cause : Trace.SettingError)
  | traceSink (cause : Trace.SettingError)
  | traceOutput (fault : FileFault)
  | manifest (cause : ManifestError)
  | noInputs
  | outputForSeveral (inputs : Nat)
  | clearCache (fault : FileFault)
  | progressMode (given : Text)
  | diagnosticFormat (given : Text)
  | outputDirectory (fault : FileFault)
  | unwritten (path : Text) (fault : FileFault)
  | inputsFailed (failed total : Nat)
  | unloaded (cause : BuildFailure)
  | stopped (cause : Failure)
  | failedCompilation (path : Text)
  | versionFormat (given : Text)
deriving DecidableEq, Repr

def RunError.message : RunError → Text
  | flags cause => cause.message
  | unknownCommand given => Command.unknownMessage given
  | unexpected command given =>
    "unknown command " ++ given.quoted ++ " for " ++ command.path.quoted
  | argumentCount expected received =>
    "accepts " ++ Text.ofNat expected ++ " arg(s), received " ++ Text.ofNat received
  | colorMode given => "unsupported color mode " ++ given.quoted ++ " (must be auto, on or off)"
  | trace cause => cause.message
  | traceSink cause => "failed to create tracer: " ++ cause.message
  | traceOutput fault => "failed to create tracer: open trace output: " ++ fault.message
  | manifest cause => cause.message
  | noInputs => "no inputs: pass files or set [build].roots in keel.toml"
  | outputForSeveral inputs => "-o needs exactly one input, got " ++ Text.ofNat inputs
  | clearCache fault => "clear build cache: " ++ fault.message
  | progressMode given => "invalid --progress " ++ given.quoted ++ " (want auto|on|off)"
  | diagnosticFormat given =>
    "unsupported diagnostics format " ++ given.quoted ++ " (must be pretty or json)"
  | outputDirectory fault => "create output directory: " ++ fault.message
  | unwritten path fault => "write " ++ path ++ ": " ++ fault.message
  | inputsFailed failed total =>
    Text.ofNat failed ++ " of " ++ Text.ofNat total ++ " inputs failed"
  | unloaded cause => cause.message
  | stopped cause => cause.message
  | failedCompilation path => path ++ ": compilation failed"
  | versionFormat given => "unsupported format " ++ given.quoted ++ " (must be pretty or json)"

/-- A run under way. -/
abbrev Session (m : Type → Type) := ExceptT RunError (StateT Transcript m)

namespace Session

variable {m : Type → Type} [Monad m] [MonadFiles m]

/-- Show a text. -/
def tell (t : Text) : Session m Unit :=
  modify fun s => { s with shown := s.shown ++ t }

/-- Say something about the course of the run. -/
def remark (t : Text) : Session m Unit :=
  modify fun s => { s with remarks := s.remarks ++ t }

/-- Go on with a result or fail. -/
def check {ε α : Type} (toError : ε → RunError) (x : Except ε α) : Session m α :=
  match x with
  | .ok a => return a
  | .error e => throw (toError e)

/-! ## Settings -/

/-- Whether colours are wanted. -/
def colored (o : RunOptions) (env : Environment) : Except RunError Bool :=
  let mode := o.color.toLower
  if mode = "auto" then .ok env.isTerminal
  else if mode = "on" ∨ mode = "always" then .ok true
  else if mode = "off" ∨ mode = "never" then .ok false
  else .error (.colorMode o.color)

/-- Where the events of a run go: into a sink, whose stream is a file or else the remarks. -/
structure Tracing where
  sink : Trace.Sink := {}
  file : Option Text := none
deriving Inhabited

/-- Find out where events go; an output without a level asks for phases. -/
def openTrace (o : RunOptions) : Session m Tracing := do
  let given ← check .trace (Trace.Level.parse o.traceLevel)
  let level := if given = .off ∧ !o.traceOutput.isEmpty then .phase else given
  if level = .off then return {}
  let mode ← check .trace (Trace.Mode.parse o.traceMode)
  let format ← check .trace (Trace.Format.parse o.traceFormat)
  let sink ← check .traceSink
    (Trace.Sink.ofOptions { level := level, mode := mode, format := format, path := o.traceOutput })
  if sink.stream.isNone || o.traceOutput.isEmpty || o.traceOutput = "-" then return { sink := sink }
  check .traceOutput (← writeFile (m := m) o.traceOutput [])
  return { sink := sink, file := some o.traceOutput }

/-- Hand recorded events to the sink; the result is the ring they are kept in. -/
def keepTrace (t : Tracing) (tracer : Trace.Tracer) : Session m (Option Trace.Ring) := do
  let (lines, sink) := t.sink.emitAll tracer.log
  match t.file with
  | some path => let _ ← writeFile (m := m) path lines.bytes
  | none => remark lines
  return sink.ring

/-- After a broken invariant, show the events that led up to it. -/
def dumpRing (ring : Option Trace.Ring) : Session m Unit := do
  if let some r := ring then remark ("trace: last events before the failure:\n" ++ r.dump .text)

/-- The settings of the manifest, with those that flags give in their place. -/
def withFlags (o : RunOptions) (c : Manifest) : Manifest :=
  let c := { c with jobs := o.jobs.getD c.jobs, entryExport := o.entryExport.getD c.entryExport }
  let c :=
    match o.minPages with
    | some n => { c with memory := ⟨n, if o.maxPages.isNone then max c.memory.max n else c.memory.max⟩ }
    | none => c
  { c with memory.max := o.maxPages.getD c.memory.max }

/-- The settings of a run. -/
def settings (o : RunOptions) : Session m Manifest := do
  let c ←
    if o.manifest.isEmpty then do
      let found ← check .manifest (← Manifest.discover (m := m) ".")
      pure (found.getD {})
    else check .manifest (← Manifest.load (m := m) o.manifest)
  let c := withFlags o c
  check .manifest c.validate
  return c

def compileOptions (o : RunOptions) (c : Manifest) : CompileOptions :=
  { entryExport := c.entryExport, memory := c.memory, maxDiagnostics := o.maxDiagnostics }

/-- Report a bag in the format asked for, each finding once and in order. -/
def report (o : RunOptions) (colored : Bool) (files : FileTable) (b : Bag) : Session m Unit := do
  if b.items.isEmpty && b.dropped = 0 then return
  let b := b.dedup.sort
  let format := o.diagnosticFormat.toLower
  if format = "json" then tell ({ showNotes := true : DocumentReport }.render files b)
  else if format = "pretty" then
    remark ({ colored := colored, showNotes := true : LineReport }.render files b)
  else throw (.diagnosticFormat o.diagnosticFormat)

/-- The timings of the phases that ran; without a clock they take no time. -/
def timings (path : Text) (colored : Bool) (phases : List (Text × Bool)) : Text :=
  let timer := phases.foldl (fun (t : Timer) (name, failed) => t.measured name failed 0 0) {}
  timer.report.render path colored

/-! ## Building -/

/-- The directory of the build cache, which is made; without one the run goes on. -/
def openCache (env : Environment) : Session m (Option Text) := do
  if env.cacheHome.isEmpty && env.home.isEmpty then
    remark "warning: build cache disabled: $HOME is not defined\n"
    return none
  let base := if env.cacheHome.isEmpty then Path.join env.home ".cache" else env.cacheHome
  let dir := Path.join base Command.toolName
  match ← Files.makeDirectories (m := m) dir with
  | .ok () => return some dir
  | .error fault =>
    remark ("warning: build cache disabled: cache: " ++ fault.message ++ "\n")
    return none

/-- The cache that a build uses; it is emptied if that is asked for. -/
def buildCache (o : RunOptions) (env : Environment) (c : Manifest) : Session m (Option Text) := do
  let used := c.useCache && !o.noCache
  if !used && !o.clearCache then return none
  let dir ← openCache env
  if o.clearCache then
    if let some d := dir then check .clearCache (← dropCache (m := m) d)
  return if used then dir else none

/-- Whether the progress of a build is shown. -/
def showsProgress (o : RunOptions) (env : Environment) (inputs : Nat) : Except RunError Bool :=
  let mode := o.progress.toLower
  if mode = "on" then .ok true
  else if mode = "off" then .ok false
  else if mode = "auto" ∨ mode = "" then .ok (env.isTerminal && 1 < inputs)
  else .error (.progressMode o.progress)

/-- The progress view at the end of a build. -/
def progressText (results : List BuildResult) : Text :=
  let title := "building " ++ Text.ofNat results.length ++ " inputs"
  let view := ProgressView.ofPaths title (results.map BuildResult.path)
  ((buildEvents results).foldl ProgressView.apply view).finish.render

/-- Write a module; the directories above it are made. -/
def writeModule (path : Text) (module : List UInt8) : Session m Unit := do
  check .outputDirectory (← Files.makeDirectories (m := m) (Path.dir path))
  check (.unwritten path) (← writeFile (m := m) path module)

/-- Whether a failure is a broken invariant. -/
def isCrash : BuildFailure → Bool
  | .stopped _ (.internal _) => true
  | _ => false

/-- Report on an input and write its module; the result is whether it failed. -/
def finishInput (o : RunOptions) (colored : Bool) (c : Manifest) (ring : Option Trace.Ring)
    (r : BuildResult) : Session m Bool := do
  report o colored r.files r.bag
  match r.failure, r.module with
  | some failure, _ =>
    remark ("error: " ++ failure.message ++ "\n")
    if isCrash failure then dumpRing ring
    return true
  | none, none => return true
  | none, some module =>
    let target := if o.output.isEmpty then c.outputPath r.path else o.output
    writeModule target module
    tell ("built " ++ r.path ++ " -> " ++ target ++ ", " ++ Text.ofNat module.length ++ " bytes"
      ++ Text.onlyIf r.cached " (cached)" ++ "\n")
    if o.timings && !r.cached then remark (timings r.path colored r.phases)
    return false

/-- Build inputs: those given, or else those of the manifest. -/
def build (o : RunOptions) (env : Environment) (colored : Bool) (trace : Tracing)
    (given : List Text) : Session m Unit := do
  let c ← settings o
  let inputs ←
    if given.isEmpty then check .manifest (← c.inputs (m := m)) else pure given
  if inputs.isEmpty then throw .noInputs
  if !o.output.isEmpty && 1 < inputs.length then throw (.outputForSeveral inputs.length)
  let cache ← buildCache o env c
  let progress ← check id (showsProgress o env inputs.length)
  let options : BuildOptions := { compile := compileOptions o c, cache := cache }
  let some (results, tracer) ← buildAll (m := m) inputs options { level := trace.sink.level }
    | throw (.stopped .canceled)
  let ring ← keepTrace trace tracer
  if progress then tell (progressText results)
  let failures ← results.mapM (finishInput o colored c ring)
  if failures.any id then throw (.inputsFailed (failures.count true) results.length)

/-! ## The other commands -/

/-- Show the unit of one input. -/
def listUnit (o : RunOptions) (colored : Bool) (trace : Tracing) (path : Text) :
    Session m Unit := do
  let c ← settings o
  let p ← check .unloaded (← loadProgram (m := m) path)
  let (result, compilation) := compile p (compileOptions o c) { level := trace.sink.level }
  let ring ← keepTrace trace compilation.tracer
  match result with
  | .error failure =>
    if isCrash (.stopped path failure) then dumpRing ring
    throw (.stopped failure)
  | .ok compiled =>
    report o colored p.files compilation.bag
    if let some unit := compiled.unit then tell (← check .stopped unit.render)
    if o.timings then
      remark (timings path colored (compilation.phases.map fun (p, failed) => (p.name, failed)))
    if compilation.bag.hasErrors then throw (.failedCompilation path)

/-- Show the version. -/
def showVersion (o : RunOptions) (env : Environment) (colored : Bool) : Session m Unit := do
  let format := o.versionFormat.toLower
  if format = "pretty" then tell (env.version.banner colored)
  else if format = "json" then tell env.version.document
  else throw (.versionFormat o.versionFormat)

/-- Explain the command that arguments name. -/
def explain (arguments : List Text) : Session m Unit :=
  match Command.find arguments with
  | .ok (c, _) => tell c.helpText
  | .error _ => remark (Command.unknownTopicText arguments)

/-- What a command does with its arguments, which are counted before anything else. -/
def command (c : Command) (o : RunOptions) (env : Environment) (arguments : List Text) :
    Session m Unit := do
  match c, arguments with
  | .ir, [_] => pure ()
  | .ir, _ => throw (.argumentCount 1 arguments.length)
  | .version, given :: _ => throw (.unexpected .version given)
  | _, _ => pure ()
  let colored ← check id (colored o env)
  let trace ← openTrace o
  match c with
  | .ir => listUnit o colored trace (arguments.headD "")
  | .version => showVersion o env colored
  | .help => explain arguments
  | _ => build o env colored trace arguments

/-- Read the arguments and do what they ask for. -/
def execute (arguments : List Text) (env : Environment) : Session m Unit := do
  let (c, rest) ← check .unknownCommand (Command.find arguments)
  let (o, others) ← check .flags (Arguments.read (c.flags ++ c.infoFlags) none rest {})
  if o.help then tell c.helpText
  else if o.showVersion then
    tell (Command.toolName ++ " version " ++ env.version.version ++ "\n")
  else
    match c with
    | .tool | .completion => tell c.helpText
    | _ => command c o env others

end Session

/-- How a run ended. -/
structure RunOutcome where
  transcript : Transcript
  succeeded : Bool
deriving DecidableEq, Repr, Inhabited

/-- What is said about an error, with where to get help if no command was found. -/
def RunError.report (e : RunError) : Text :=
  let hint : Text :=
    match e with
    | .unknownCommand _ => "Run 'keel --help' for usage.\n"
    | _ => ""
  "Error: " ++ e.message ++ "\n" ++ hint

/-- Run the tool on arguments. -/
def runTool {m : Type → Type} [Monad m] [MonadFiles m] (arguments : List Text)
    (env : Environment) : m RunOutcome := do
  let (result, transcript) ← (Session.execute arguments env : Session m Unit).run.run {}
  match result with
  | .ok () => return ⟨transcript, true⟩
  | .error e => return ⟨{ transcript with remarks := transcript.remarks ++ e.report }, false⟩

end WasmBackend
