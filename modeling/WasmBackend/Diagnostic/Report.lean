import WasmBackend.Diagnostic.Basic
import WasmBackend.Json
import WasmBackend.Path
import WasmBackend.Terminal

/-!
# Reports of diagnostics

A bag is shown to people one line per diagnostic, `path:start-stop: SEVERITY CODE: message`, with
its notes indented below, and to tools as one JSON document.  Both say how many diagnostics the
limit turned away.
-/

namespace WasmBackend

/-- How the path of a source file is shown. -/
inductive PathDisplay where
  | whole
  | lastPart
deriving DecidableEq, Repr, Inhabited

/-- The path of a file as it is shown. -/
def FileTable.shownPath (files : FileTable) (file : UInt32) (display : PathDisplay) : Text :=
  match display with
  | .whole => files.path file
  | .lastPart => Path.base (files.path file)

/-- A span as it is shown; a made-up node has no place. -/
def FileTable.place (files : FileTable) (s : Span) (display : PathDisplay) : Text :=
  if s.file = 0 then "<synthetic>"
  else
    files.shownPath s.file display ++ ":" ++ Text.ofNat s.start.toNat ++ "-"
      ++ Text.ofNat s.stop.toNat

namespace Severity

/-- The style of a severity: errors red, warnings yellow, all else cyan. -/
def style (s : Severity) : Style :=
  if s = error then [.red, .bold]
  else if s = warning then [.yellow, .bold]
  else [.cyan]

end Severity

/-- How diagnostics are shown to people. -/
structure LineReport where
  colored : Bool := false
  display : PathDisplay := .whole
  showNotes : Bool := false
deriving DecidableEq, Repr, Inhabited

namespace LineReport

def note (r : LineReport) (files : FileTable) (n : Note) : Text :=
  "  " ++ Style.paint [.blue] r.colored "note" ++ " " ++ files.place n.span r.display ++ ": "
    ++ n.message ++ "\n"

def diagnostic (r : LineReport) (files : FileTable) (d : Diagnostic) : Text :=
  files.place d.span r.display ++ ": " ++ d.severity.style.paint r.colored d.severity.name ++ " "
    ++ Style.paint [.faint] r.colored d.code.id ++ ": " ++ d.message ++ "\n"
    ++ Text.onlyIf r.showNotes (Text.concat (d.notes.map (r.note files)))

/-- The lines of a bag, in its order. -/
def render (r : LineReport) (files : FileTable) (b : Bag) : Text :=
  Text.concat (b.items.map (r.diagnostic files))
    ++ Text.onlyIf (0 < b.dropped)
      ("... " ++ Text.ofNat b.dropped ++ " more diagnostics not shown\n")

end LineReport

/-- How diagnostics are shown to tools. -/
structure DocumentReport where
  display : PathDisplay := .whole
  /-- How many diagnostics are listed; 0 or below for all. -/
  limit : Int := 0
  showNotes : Bool := false
deriving DecidableEq, Repr, Inhabited

namespace DocumentReport

def location (r : DocumentReport) (files : FileTable) (s : Span) : Json :=
  .ofMembers
    [Json.optionalStr "file" (if s.file = 0 then "" else files.shownPath s.file r.display),
      Json.member "start_byte" (.num s.start.toNat),
      Json.member "end_byte" (.num s.stop.toNat)]

def note (r : DocumentReport) (files : FileTable) (n : Note) : Json :=
  .ofMembers
    [Json.member "message" (.str n.message), Json.member "location" (r.location files n.span)]

def diagnostic (r : DocumentReport) (files : FileTable) (d : Diagnostic) : Json :=
  .ofMembers
    [Json.member "severity" (.str d.severity.name),
      Json.member "code" (.str d.code.id),
      Json.member "title" (.str d.code.title),
      Json.member "message" (.str d.message),
      Json.member "location" (r.location files d.span),
      Json.optionalArr "notes" (if r.showNotes then d.notes.map (r.note files) else [])]

/-- The document of a bag; the limit cuts the list and not the count. -/
def render (r : DocumentReport) (files : FileTable) (b : Bag) : Text :=
  let listed := if 0 < r.limit then b.items.take r.limit.toNat else b.items
  Json.document <| .ofMembers
    [Json.member "diagnostics" (.arr (listed.map (r.diagnostic files))),
      Json.member "count" (.num b.items.length),
      Json.optionalNum "dropped" b.dropped]

end DocumentReport

end WasmBackend
