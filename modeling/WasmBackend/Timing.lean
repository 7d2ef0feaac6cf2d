import WasmBackend.Double.Decimal
import WasmBackend.Moment
import WasmBackend.Terminal.Block

/-!
# Phase timings

A timer notes when phases start and end, in the order they start.  Its report gives milliseconds;
it is shown as aligned lines, or as a boxed table where colours are wanted.
-/

namespace WasmBackend

/-- A phase under a timer. -/
structure TimedPhase where
  name : Text
  /-- When it started, in nanoseconds. -/
  start : Int := 0
  elapsed : Duration := {}
  note : Text := ""
deriving DecidableEq, Repr, Inhabited

/-- The phases in the order they started. -/
structure Timer where
  phases : List TimedPhase := []
deriving DecidableEq, Repr, Inhabited

namespace Timer

/-- Start a phase at a time; the number is its position. -/
def start (t : Timer) (name : Text) (now : Int) : Timer × Nat :=
  (⟨t.phases ++ [{ name := name, start := now }]⟩, t.phases.length)

/-- End the phase at a position; a position that names none is ignored. -/
def stop (t : Timer) (position : Int) (note : Text) (now : Int) : Timer :=
  if position < 0 then t
  else ⟨t.phases.modify position.toNat fun p =>
    { p with elapsed := ⟨now - p.start⟩, note := note }⟩

/-- What is noted about a phase. -/
def noteOf (failed : Bool) : Text :=
  Text.onlyIf failed "failed"

/-- Note a whole phase that ran between two times. -/
def measured (t : Timer) (name : Text) (failed : Bool) (start stop : Int) : Timer :=
  let (t, i) := t.start name start
  t.stop i (noteOf failed) stop

end Timer

/-- A phase in a report. -/
structure PhaseReport where
  name : Text
  milliseconds : Double
  note : Text := ""
deriving DecidableEq, Repr, Inhabited

structure TimingReport where
  total : Double := .zero
  phases : List PhaseReport := []
deriving DecidableEq, Repr, Inhabited

/-- A duration in milliseconds. -/
def Duration.milliseconds (d : Duration) : Double :=
  .ofRatio d.nanos 1000000

/-- The report of a timer. -/
def Timer.report (t : Timer) : TimingReport where
  total := Duration.milliseconds ⟨t.phases.foldl (fun n p => n + p.elapsed.nanos) 0⟩
  phases := t.phases.map fun p => ⟨p.name, p.elapsed.milliseconds, p.note⟩

namespace TimingReport

/-- One aligned line: a name, milliseconds, and a note. -/
def summaryLine (name : Text) (ms : Double) (note : Text) : Text :=
  "  " ++ name.padRight 12 ++ " " ++ (ms.fixed 2).padLeft 8 ++ " ms"
    ++ Text.onlyIf (!note.isEmpty) ("  // " ++ note) ++ "\n"

/-- The report as aligned lines. -/
def summary (r : TimingReport) : Text :=
  "timings:\n" ++ Text.concat (r.phases.map fun p => summaryLine p.name p.milliseconds p.note)
    ++ summaryLine "total" r.total ""

/-- The report as a table. -/
def table (r : TimingReport) : BoxedTable where
  headers := ["phase", "ms", "note"]
  rows :=
    let total : PhaseReport := ⟨"total", r.total, ""⟩
    (r.phases ++ [total]).map fun p =>
      [p.name, p.milliseconds.fixed 2, TextBlock.layOut p.note]
  alignments := [.left, .right, .left]

/-- The report of one input under its path; nothing if no phase ran. -/
def render (r : TimingReport) (path : Text) (colored : Bool) : Text :=
  if r.phases.isEmpty then ""
  else if colored then TextBlock.layOut path ++ "\n" ++ r.table.render ++ "\n"
  else path ++ "\n" ++ r.summary

end TimingReport

end WasmBackend
