import WasmBackend.Terminal.Block
import WasmBackend.Text.Cluster

/-!
# Progress of a build

A build tells how each of its inputs moves on.  The progress view lists the inputs with what is
being done to them above a bar, which is drawn empty until the build is over.
-/

namespace WasmBackend

/-- Where an input stands: 0 queued, 1 being worked on, 2 done, 3 taken from the cache,
4 failed. -/
structure BuildStatus where
  code : UInt8
deriving DecidableEq, Repr, Inhabited

namespace BuildStatus

def queued : BuildStatus := ⟨0⟩

def working : BuildStatus := ⟨1⟩

def done : BuildStatus := ⟨2⟩

def cached : BuildStatus := ⟨3⟩

def failed : BuildStatus := ⟨4⟩

def name (s : BuildStatus) : String :=
  ["queued", "working", "done", "cached", "failed"].getD s.code.toNat "unknown"

/-- Whether nothing more is told about the input. -/
def isFinished (s : BuildStatus) : Bool :=
  done.code ≤ s.code

end BuildStatus

/-- News about an input; the phase is given while it is being worked on. -/
structure BuildEvent where
  path : Text
  phase : Text := ""
  status : BuildStatus
deriving DecidableEq, Repr, Inhabited

/-- The progress view. -/
structure ProgressView where
  title : Text
  /-- The latest news about every input. -/
  inputs : List BuildEvent
  /-- The cells of a line. -/
  width : Nat := 80
  /-- The cells of the bar with the number behind it. -/
  barWidth : Nat := 76
  /-- How often the spinner has moved. -/
  ticks : Nat := 0
  done : Bool := false
deriving Repr, Inhabited

namespace ProgressView

def ofPaths (title : Text) (paths : List Text) : ProgressView :=
  { title := title, inputs := paths.map fun p => { path := p, status := .queued } }

/-- Take in news; a path that is listed several times is followed in its last place. -/
def apply (v : ProgressView) (e : BuildEvent) : ProgressView :=
  match v.inputs.reverse.findIdx? fun i => i.path = e.path with
  | none => v
  | some back =>
    { v with
      inputs := v.inputs.modify (v.inputs.length - 1 - back) fun i =>
        { i with status := e.status, phase := if e.phase.isEmpty then i.phase else e.phase } }

/-- Fit the view to a terminal; a width of zero or below is no width. -/
def resize (v : ProgressView) (width : Int) : ProgressView :=
  if 0 < width then { v with width := width.toNat, barWidth := max (width.toNat - 4) 10 } else v

/-- Move the spinner. -/
def tick (v : ProgressView) : ProgressView :=
  if v.done then v else { v with ticks := v.ticks + 1 }

/-- The build is over. -/
def finish (v : ProgressView) : ProgressView :=
  { v with done := true }

/-- The frames of the spinner. -/
def spinnerFrames : List Text :=
  ["⣾ ", "⣽ ", "⣻ ", "⢿ ", "⡿ ", "⣟ ", "⣯ ", "⣷ "]

/-- What is shown about an input: its phase while it is being worked on, else its status. -/
def label (i : BuildEvent) : Text :=
  if i.status = .working ∧ i.phase ≠ "" then i.phase else i.status.name

/-- The line of an input: the label in nine columns and the path in the rest of the line. -/
def inputLine (v : ProgressView) (i : BuildEvent) : Text :=
  "  " ++ TextBlock.layOut ((label i).padLeft 9) ++ " "
    ++ Text.truncate (max (v.width - 13) 20) "..." i.path ++ "\n"

/-- The bar, empty or full, with the percentage behind it. -/
def bar (v : ProgressView) : Text :=
  let cells := v.barWidth - 5
  if v.done then Text.concat (List.replicate cells "█") ++ " 100%"
  else Text.concat (List.replicate cells "░") ++ "   0%"

def header (v : ProgressView) : Text :=
  if v.done then "done: " ++ v.title
  else spinnerFrames.getD (v.ticks % spinnerFrames.length) "" ++ " " ++ v.title

/-- The text of the view; nothing without inputs. -/
def render (v : ProgressView) : Text :=
  if v.inputs.isEmpty then ""
  else
    TextBlock.layOut v.header ++ "\n\n" ++ Text.concat (v.inputs.map v.inputLine) ++ "\n" ++ v.bar ++ "\n"

end ProgressView

end WasmBackend
