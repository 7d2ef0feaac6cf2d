import WasmBackend.Text

/-!
# Source positions

A `Span` is a byte range of one source file.  File number 0 means "no file": nodes that a pass
made up carry it.  A `FileTable` gives the paths of the files 1, 2, … .
-/

namespace WasmBackend

/-- A half-open byte range `[start, stop)` of a source file. -/
structure Span where
  file : UInt32 := 0
  start : UInt32 := 0
  stop : UInt32 := 0
deriving DecidableEq, Repr, Inhabited

namespace Span

/-- Whether the range holds no byte. -/
def isEmpty (s : Span) : Bool :=
  s.start == s.stop

/-- The number of bytes, modulo 2^32 when the ends are crossed. -/
def size (s : Span) : UInt32 :=
  s.stop - s.start

/-- The numeric form `file:start-stop`. -/
def render (s : Span) : Text :=
  Text.ofNat s.file.toNat ++ ":" ++ Text.ofNat s.start.toNat ++ "-" ++ Text.ofNat s.stop.toNat

/-- The smallest span over both; a span of another file is ignored. -/
def cover (s other : Span) : Span :=
  if s.file ≠ other.file then s
  else
    { s with
      start := if other.start < s.start then other.start else s.start
      stop := if s.stop < other.stop then other.stop else s.stop }

end Span

/-- The paths of the source files, numbered from 1. -/
structure FileTable where
  paths : List Text := []
deriving DecidableEq, Repr, Inhabited

namespace FileTable

/-- Add a path and give its number. -/
def add (t : FileTable) (path : Text) : FileTable × Nat :=
  (⟨t.paths ++ [path]⟩, t.paths.length + 1)

/-- The path of a file, or `<unknown>`. -/
def path (t : FileTable) (file : UInt32) : Text :=
  if file = 0 then "<unknown>" else t.paths.getD (file.toNat - 1) "<unknown>"

/-- A span as `path:start-stop`, with `<synthetic>` for no file. -/
def format (t : FileTable) (s : Span) : Text :=
  if s.file = 0 then "<synthetic>"
  else t.path s.file ++ ":" ++ Text.ofNat s.start.toNat ++ "-" ++ Text.ofNat s.stop.toNat

end FileTable

end WasmBackend
