import WasmBackend.Source

/-!
# Diagnostics

A diagnostic is a finding about the source: a severity, a numbered code, a message, the span it is
about and notes.  Phases go on after reporting one, so that a single run shows as many problems as
possible.
-/

namespace WasmBackend

/-- How serious a finding is; larger numbers are more serious. -/
structure Severity where
  level : UInt8
deriving DecidableEq, Repr, Inhabited

namespace Severity

def info : Severity := ⟨0⟩

def warning : Severity := ⟨1⟩

def error : Severity := ⟨2⟩

def name (s : Severity) : String :=
  if s = info then "INFO"
  else if s = warning then "WARNING"
  else if s = error then "ERROR"
  else "UNKNOWN"

end Severity

/-- The number of a kind of finding; the thousands and hundreds tell the phase. -/
structure Code where
  number : UInt16
deriving DecidableEq, Repr, Inhabited

namespace Code

def exportGeneric : Code := ⟨4001⟩

def duplicateExport : Code := ⟨4002⟩

def badNative : Code := ⟨4003⟩

def foreignBody : Code := ⟨4004⟩

def badExportName : Code := ⟨4005⟩

def nativeBody : Code := ⟨4006⟩

def circularLayout : Code := ⟨4101⟩

def unsupported : Code := ⟨4201⟩

def stringNotComposed : Code := ⟨4202⟩

def memoryTooSmall : Code := ⟨4301⟩

/-- What a code is about. -/
def title (c : Code) : String :=
  match c.number.toNat with
  | 4000 => "scheduling information"
  | 4001 => "generic function cannot be exported"
  | 4002 => "duplicate export name"
  | 4003 => "unknown native intrinsic"
  | 4004 => "foreign function must not have a body"
  | 4005 => "invalid export name"
  | 4006 => "native function must not have a body"
  | 4100 => "layout information"
  | 4101 => "circular value containment"
  | 4200 => "lowering information"
  | 4201 => "construct not supported by this backend"
  | 4202 => "string literal is not in Unicode NFC"
  | 4300 => "emission information"
  | 4301 => "static data does not fit into configured memory"
  | _ => "unknown error"

/-- The code as users see it: three letters for the phase and the number. -/
def id (c : Code) : Text :=
  let n := c.number.toNat
  if 4000 ≤ n ∧ n < 4100 then "SCH" ++ Text.ofNat n
  else if 4100 ≤ n ∧ n < 4200 then "LAY" ++ Text.ofNat n
  else if 4200 ≤ n ∧ n < 4300 then "LOW" ++ Text.ofNat n
  else if 4300 ≤ n ∧ n < 4400 then "EMT" ++ Text.ofNat n
  else "E0000"

/-- Identifier and title together. -/
def describe (c : Code) : Text :=
  "[" ++ c.id ++ "]: " ++ c.title

end Code

structure Note where
  span : Span
  message : Text
deriving DecidableEq, Repr, Inhabited

structure Diagnostic where
  severity : Severity
  code : Code
  message : Text
  span : Span := {}
  notes : List Note := []
deriving DecidableEq, Repr, Inhabited

namespace Diagnostic

/-- A finding that fails the build. -/
def error (code : Code) (span : Span) (message : Text) (notes : List Note := []) : Diagnostic :=
  ⟨.error, code, message, span, notes⟩

/-- A finding that does not fail the build. -/
def warning (code : Code) (span : Span) (message : Text) (notes : List Note := []) : Diagnostic :=
  ⟨.warning, code, message, span, notes⟩

/-- What makes two diagnostics the same finding. -/
def identity (d : Diagnostic) : Code × Span × Text :=
  (d.code, d.span, d.message)

/-- The place of a diagnostic in sorted output: file, position, severity with errors first, and
code. -/
def sortKey (d : Diagnostic) : List Nat :=
  [d.span.file.toNat, d.span.start.toNat, d.span.stop.toNat, 255 - d.severity.level.toNat,
    d.code.number.toNat]

end Diagnostic

/-!
## Bags of diagnostics

A bag keeps diagnostics in the order they are reported, up to an optional limit.  What the limit
turns away is counted and still fails the build.
-/

/-- Reported diagnostics; a limit of 0 or below keeps everything. -/
structure Bag where
  items : List Diagnostic := []
  limit : Int := 0
  dropped : Nat := 0
deriving DecidableEq, Repr, Inhabited

namespace Bag

/-- An empty bag with a limit. -/
def ofLimit (limit : Int) : Bag := { limit := limit }

/-- Whether one more diagnostic would be turned away. -/
def isFull (b : Bag) : Bool :=
  0 < b.limit && b.limit ≤ b.items.length

/-- Report a diagnostic. -/
def add (b : Bag) (d : Diagnostic) : Bag :=
  if b.isFull then { b with dropped := b.dropped + 1 } else { b with items := b.items ++ [d] }

/-- Whether the build fails: some error was kept, or anything was turned away. -/
def hasErrors (b : Bag) : Bool :=
  0 < b.dropped || b.items.any fun d => Severity.error.level ≤ d.severity.level

def hasCode (b : Bag) (c : Code) : Bool :=
  b.items.any fun d => d.code = c

/-- The diagnostics ordered by file, position, severity and code; equal ones keep their order. -/
def sort (b : Bag) : Bag :=
  { b with items := b.items.mergeSort fun x y => !(y.sortKey < x.sortKey) }

/-- Keep of every finding the first diagnostic, given the findings already seen. -/
def firstOfEach (seen : List (Code × Span × Text)) : List Diagnostic → List Diagnostic
  | [] => []
  | d :: rest =>
    if d.identity ∈ seen then firstOfEach seen rest
    else d :: firstOfEach (d.identity :: seen) rest

/-- The first diagnostic of every finding. -/
def dedup (b : Bag) : Bag :=
  { b with items := firstOfEach [] b.items }

end Bag

end WasmBackend
