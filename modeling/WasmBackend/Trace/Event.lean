import WasmBackend.Moment

/-!
# Trace events

A trace records what a run does as spans, which begin and end, and points.  Every event has a
scope from coarse to fine, and a level decides which scopes are kept.
-/

namespace WasmBackend.Trace

/-- How much is recorded: 0 nothing, 1 everything for a later dump, 2 phases, 3 tasks as well,
4 blocks as well. -/
structure Level where
  code : UInt8
deriving DecidableEq, Repr, Inhabited

/-- How fine an event is: 1 one compilation, 2 one pass, 3 one function or type, 4 one block. -/
structure Scope where
  code : UInt8
deriving DecidableEq, Repr, Inhabited

/-- What an event marks: 1 the begin of a span, 2 its end, 3 a point. -/
structure EventKind where
  code : UInt8
deriving DecidableEq, Repr, Inhabited

namespace Level

def off : Level := ⟨0⟩

def error : Level := ⟨1⟩

def phase : Level := ⟨2⟩

def detail : Level := ⟨3⟩

def debug : Level := ⟨4⟩

/-- The names in code order. -/
def names : List String := ["off", "error", "phase", "detail", "debug"]

def name (l : Level) : String :=
  names.getD l.code.toNat "unknown"

/-- Whether events of a scope are recorded. -/
def admits (l : Level) (s : Scope) : Bool :=
  if l = error ∨ l = debug then true
  else if l = phase then s.code ≤ 2
  else if l = detail then s.code ≤ 3
  else false

end Level

namespace Scope

def driver : Scope := ⟨1⟩

def pass : Scope := ⟨2⟩

def task : Scope := ⟨3⟩

def node : Scope := ⟨4⟩

def name (s : Scope) : String :=
  if s.code = 0 then "unknown"
  else ["driver", "pass", "task", "node"].getD (s.code.toNat - 1) "unknown"

end Scope

namespace EventKind

def spanBegin : EventKind := ⟨1⟩

def spanEnd : EventKind := ⟨2⟩

def point : EventKind := ⟨3⟩

def name (k : EventKind) : String :=
  if k.code = 0 then "unknown"
  else ["begin", "end", "point"].getD (k.code.toNat - 1) "unknown"

end EventKind

structure Event where
  time : Instant := {}
  seq : Nat := 0
  kind : EventKind
  scope : Scope
  /-- The span the event belongs to; points have none. -/
  span : Nat := 0
  parent : Nat := 0
  name : Text
  detail : Text := ""
  /-- The duration of a span that ends. -/
  elapsed : Duration := {}
  /-- Keys and values reported when a span ends. -/
  attrs : List (Text × Text) := []
deriving DecidableEq, Repr, Inhabited

/-!
## Recording events

A `Tracer` numbers and keeps the events its level admits.  A span whose scope is not admitted is
inert: it emits nothing and stands for its parent, so that what happens inside it is attached to
the nearest recorded span.
-/

/-- The events recorded so far and the counters they are numbered from. -/
structure Tracer where
  level : Level := .off
  /-- The number of events recorded. -/
  events : Nat := 0
  /-- The number of spans begun. -/
  spans : Nat := 0
  /-- The recorded events, newest first. -/
  recorded : List Event := []
deriving Inhabited

/-- A span that has begun. -/
structure OpenSpan where
  /-- Its own number, or its parent's when it is inert. -/
  id : Nat
  parent : Nat := 0
  scope : Scope := ⟨0⟩
  name : Text := ""
  attrs : List (Text × Text) := []
  active : Bool := false
deriving Inhabited

namespace Tracer

/-- The recorded events in order. -/
def log (t : Tracer) : List Event :=
  t.recorded.reverse

/-- Record an event under the next number. -/
def record (t : Tracer) (e : Event) : Tracer :=
  { t with events := t.events + 1, recorded := { e with seq := t.events + 1 } :: t.recorded }

/-- Begin a span below a parent. -/
def enter (t : Tracer) (scope : Scope) (name : Text) (parent : Nat) : Tracer × OpenSpan :=
  if t.level.admits scope then
    let id := t.spans + 1
    let t := { t with spans := id }
    (t.record { kind := .spanBegin, scope := scope, span := id, parent := parent, name := name },
      { id := id, parent := parent, scope := scope, name := name, active := true })
  else (t, { id := parent })

/-- End a span; its attributes are reported ordered by key. -/
def leave (t : Tracer) (s : OpenSpan) (detail : Text) : Tracer :=
  if s.active then
    t.record
      { kind := .spanEnd
        scope := s.scope
        span := s.id
        parent := s.parent
        name := s.name
        detail := detail
        attrs := s.attrs.mergeSort fun a b => !(b.1.lt a.1) }
  else t

/-- Record a point below a parent. -/
def point (t : Tracer) (scope : Scope) (name detail : Text) (parent : Nat) : Tracer :=
  if t.level.admits scope then
    t.record { kind := .point, scope := scope, parent := parent, name := name, detail := detail }
  else t

end Tracer

/-- Attach a key and a value to an active span. -/
def OpenSpan.attr (s : OpenSpan) (key value : Text) : OpenSpan :=
  if s.active then { s with attrs := s.attrs ++ [(key, value)] } else s

end WasmBackend.Trace
