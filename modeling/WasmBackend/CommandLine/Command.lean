import WasmBackend.CommandLine.Flag
import WasmBackend.Text.Lowercase

/-!
# Commands

The tool has one command for each thing it does.  Its name is the first argument that is neither a
flag nor a flag's value; flags of the tool itself may stand before it.  An unknown name is answered
with the names that are close to it.
-/

namespace WasmBackend

/-- What the flags of a run ask for. -/
structure RunOptions where
  help : Bool := false
  showVersion : Bool := false
  /-- The path of the manifest; empty to look for one. -/
  manifest : Text := ""
  color : Text := "auto"
  timings : Bool := false
  maxDiagnostics : Int := 100
  traceOutput : Text := ""
  traceLevel : Text := "off"
  traceMode : Text := "stream"
  traceFormat : Text := "auto"
  noCache : Bool := false
  jobs : Option Int := none
  /-- The path of the module; empty for the usual one. -/
  output : Text := ""
  progress : Text := "auto"
  clearCache : Bool := false
  entryExport : Option Text := none
  minPages : Option UInt32 := none
  maxPages : Option UInt32 := none
  diagnosticFormat : Text := "pretty"
  versionFormat : Text := "pretty"
deriving DecidableEq, Repr, Inhabited

/-- The commands; `tool` stands for a run without one. -/
inductive Command where
  | tool
  | build
  | ir
  | version
  | help
  | completion
deriving DecidableEq, Repr, Inhabited

namespace Command

/-- The name of the tool. -/
def toolName : Text := "keel"

def name : Command → Text
  | tool => toolName
  | build => "build"
  | ir => "ir"
  | version => "version"
  | help => "help"
  | completion => "completion"

/-- The name of a command behind the name of the tool. -/
def path (c : Command) : Text :=
  if c = tool then toolName else toolName ++ " " ++ c.name

def purpose : Command → Text
  | tool => "keel turns fully typed programs into WebAssembly modules"
  | build => "Compile typed ASTs to WebAssembly"
  | ir => "Print the pruned SSA IR of every function"
  | version => "Show keel build metadata"
  | help => "Help about any command"
  | completion => "Generate the autocompletion script for the specified shell"

/-- The commands that can be named. -/
def named : List Command :=
  [build, ir, version, help, completion]

/-- The commands that are suggested. -/
def suggested : List Command :=
  [build, ir, version, completion]

/-! ## Flags -/

/-- The flags of every command.  The flags that ask for a profile are read and have no effect. -/
def sharedFlags : List (Flag RunOptions) :=
  [{ name := "config", effect := .text fun v o => { o with manifest := v }
     purpose := "path to keel.toml (default: search upwards from the working directory)" },
    { name := "color", effect := .text fun v o => { o with color := v }
      purpose := "colorize output (auto|on|off)", preset := "auto" },
    { name := "timings", effect := .switch fun v o => { o with timings := v }
      purpose := "show phase timings" },
    { name := "max-diagnostics", effect := .integer fun v o => { o with maxDiagnostics := v }
      purpose := "maximum number of diagnostics to keep per input", preset := "100" },
    { name := "trace", effect := .text fun v o => { o with traceOutput := v }
      purpose := "trace output file (- for stderr)" },
    { name := "trace-level", effect := .text fun v o => { o with traceLevel := v }
      purpose := "trace level (off|error|phase|detail|debug)", preset := "off" },
    { name := "trace-mode", effect := .text fun v o => { o with traceMode := v }
      purpose := "trace storage (stream|ring|both)", preset := "stream" },
    { name := "trace-format", effect := .text fun v o => { o with traceFormat := v }
      purpose := "trace encoding (auto|text|ndjson)", preset := "auto" },
    { name := "cpu-profile", effect := .text fun _ o => o
      purpose := "write a CPU profile to this file" },
    { name := "mem-profile", effect := .text fun _ o => o
      purpose := "write a heap profile to this file on exit" },
    { name := "exec-trace", effect := .text fun _ o => o
      purpose := "write a Go execution trace to this file" },
    { name := "no-cache", effect := .switch fun v o => { o with noCache := v }
      purpose := "ignore the build cache" },
    { name := "jobs", effect := .integer fun v o => { o with jobs := some v }
      purpose := "concurrent compilations (0 = GOMAXPROCS)" }]

/-- The flags of commands that compile. -/
def compileFlags : List (Flag RunOptions) :=
  [{ name := "entry", effect := .text fun v o => { o with entryExport := some v }
     purpose := "export name of the program entry" },
    { name := "min-pages", effect := .word fun v o => { o with minPages := some v }
      purpose := "initial memory size in 64 KiB pages" },
    { name := "max-pages", effect := .word fun v o => { o with maxPages := some v }
      purpose := "maximum memory size in 64 KiB pages" },
    { name := "diag-format", effect := .text fun v o => { o with diagnosticFormat := v }
      purpose := "diagnostics format (pretty|json)", preset := "pretty" }]

/-- The flags of one command alone. -/
def ownFlags : Command → List (Flag RunOptions)
  | build =>
    { name := "output", letter := some 111, effect := .text fun v o => { o with output := v }
      purpose := "output file (single input only)" }
    :: { name := "progress", effect := .text fun v o => { o with progress := v }
         purpose := "interactive progress view (auto|on|off)", preset := "auto" }
    :: { name := "clear-cache", effect := .switch fun v o => { o with clearCache := v }
         purpose := "remove every build cache entry before building" }
    :: compileFlags
  | ir => compileFlags
  | version =>
    [{ name := "format", effect := .text fun v o => { o with versionFormat := v }
       purpose := "output format (pretty|json)", preset := "pretty" }]
  | _ => []

/-- The flags that decide which arguments are words. -/
def flags (c : Command) : List (Flag RunOptions) :=
  c.ownFlags ++ sharedFlags

/-- The flags that ask about the tool instead of running it. -/
def infoFlags (c : Command) : List (Flag RunOptions) :=
  let help : Flag RunOptions :=
    { name := "help", letter := some 104, effect := .switch fun v o => { o with help := v }
      purpose := "help for " ++ c.name }
  let version : Flag RunOptions :=
    { name := "version", letter := some 118
      effect := .switch fun v o => { o with showVersion := v }
      purpose := "version for " ++ c.name }
  if c = tool then [help, version] else [help]

/-! ## Finding the command -/

/-- The next row of the table of edit distances: from the distances of a text to all initial parts
of another, those of the text with one more letter; `left` is the distance last found. -/
def distanceRow (letter : UInt8) : List UInt8 → List Nat → Nat → List Nat
  | b :: rest, diagonal :: above :: row, left =>
    let here := if letter = b then diagonal else min (min above left) diagonal + 1
    here :: distanceRow letter rest (above :: row) here
  | _, _, _ => []

/-- The least number of letters to insert, remove or replace that makes one text of another. -/
def editDistance (a b : Text) : Nat :=
  let start := List.range (b.size + 1)
  let last := a.bytes.foldl
    (fun row letter =>
      let first := row.headD 0 + 1
      first :: distanceRow letter b.bytes row first) start
  last.getLastD 0

/-- The names close to what was given: at most two letters away, or starting with it, whatever the
case. -/
def suggestions (given : Text) : List Text :=
  let names := suggested.map name
  names.filter fun n =>
    editDistance given.toLower n ≤ 2 || n.startsWith given.toLower

/-- What is said about an unknown command. -/
def unknownMessage (given : Text) : Text :=
  let close := suggestions given
  "unknown command " ++ given.quoted ++ " for " ++ toolName.quoted
    ++ Text.onlyIf (!close.isEmpty)
      ("\n\nDid you mean this?\n" ++ Text.concat (close.map fun n => "\t" ++ n ++ "\n"))

/-- The command that arguments name and the other arguments, or the name if it is unknown. -/
def find (arguments : List Text) : Except Text (Command × List Text) :=
  match Arguments.words tool.flags arguments with
  | [] => .ok (tool, arguments)
  | word :: _ =>
    match named.find? fun c => c.name = word with
    | some c => .ok (c, Arguments.dropWord tool.flags word arguments)
    | none => .error word

end Command

end WasmBackend
