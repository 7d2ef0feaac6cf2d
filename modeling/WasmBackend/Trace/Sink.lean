import WasmBackend.Json
import WasmBackend.Text.Lowercase
import WasmBackend.Text.Printable
import WasmBackend.Trace.Event

/-!
# Where events go

A sink writes admitted events to a stream as they come, keeps the latest of them in a ring, or
both.  At the level `error` events are only wanted after a crash, so they always go to a ring.
-/

namespace WasmBackend.Trace

/-!
## Lines of a trace

An event is written on one line, either for people, indented by its scope and marked by its kind,
or as a JSON object.
-/

/-- How events are written: 0 by the name of the output, 1 as text, 2 as JSON. -/
structure Format where
  code : UInt8
deriving DecidableEq, Repr, Inhabited

namespace Format

def auto : Format := ⟨0⟩

def text : Format := ⟨1⟩

def ndjson : Format := ⟨2⟩

/-- The format of an output: what is asked for, or else by the end of its path. -/
def forPath (f : Format) (path : Text) : Format :=
  if f ≠ auto then f
  else if path.endsWith ".ndjson" || path.endsWith ".jsonl" then ndjson
  else text

end Format

namespace EventKind

/-- The mark of a kind in a line for people. -/
def mark (k : EventKind) : Text :=
  if k = spanBegin then "> "
  else if k = spanEnd then "< "
  else ". "

end EventKind

namespace Event

/-- The line for people: number, indentation by scope, mark, name, detail, attributes, and the
duration of a span that ends. -/
def textLine (e : Event) : Text :=
  "[" ++ Text.padLeft 6 (Text.ofNat e.seq) ++ "] "
    ++ Text.replicate (2 * (e.scope.code.toNat - 1)) 32
    ++ e.kind.mark ++ e.name ++ Text.onlyIf (!e.detail.isEmpty) (" " ++ e.detail)
    ++ Text.concat (e.attrs.map fun (k, v) => " " ++ k ++ "=" ++ v)
    ++ Text.onlyIf (e.kind = .spanEnd) (" (" ++ e.elapsed.roundedToMicroseconds.render ++ ")")
    ++ "\n"

/-- The attributes ordered by key; the last value given for a key counts. -/
def attrMembers (attrs : List (Text × Text)) : List (Text × Json) :=
  let latest := attrs.reverse.foldl
    (fun kept (k, v) => if kept.any fun x => x.1 = k then kept else (k, v) :: kept) []
  (latest.mergeSort fun a b => !(b.1.lt a.1)).map fun (k, v) => (k, .str v)

/-- The line for tools: a JSON object without the fields that say nothing. -/
def jsonLine (e : Event) : Text :=
  let attrs := attrMembers e.attrs
  let object := Json.ofMembers
    [Json.member "time" (.str e.time.render),
      Json.member "seq" (.num e.seq),
      Json.member "kind" (.str e.kind.name),
      Json.member "scope" (.str e.scope.name),
      Json.optionalNum "span" e.span,
      Json.optionalNum "parent" e.parent,
      Json.member "name" (.str e.name),
      Json.optionalStr "detail" e.detail,
      Json.optionalNum "elapsed_us" e.elapsed.microseconds,
      if attrs.isEmpty then none else Json.member "attrs" (.obj attrs)]
  object.compact ++ "\n"

/-- The line of an event in a format. -/
def line (e : Event) (f : Format) : Text :=
  if f = .ndjson then e.jsonLine else e.textLine

end Event

/-!
## A ring of events

A ring keeps the latest events in a fixed number of places.  A new event goes to the next place,
and after the last place comes the first one again; from then on every new event takes the place
of the oldest one.
-/

/-- The latest events. -/
structure Ring where
  places : Array Event
  /-- The place of the next event. -/
  next : Nat
  /-- Whether every place has been used. -/
  full : Bool
  next_lt : next < places.size

/-- The number of places of a ring that asks for none. -/
def defaultRingSize : Nat := 4096

/-- The number of places of a ring that asks for a size; 0 or below asks for the usual one. -/
def ringCapacity (size : Int) : Nat :=
  if 0 < size then size.toNat else defaultRingSize

theorem ringCapacity_pos (size : Int) : 0 < ringCapacity size := by
  unfold ringCapacity defaultRingSize
  split <;> omega

namespace Ring

/-- A ring without events. -/
def ofSize (size : Int) : Ring where
  places := Array.replicate (ringCapacity size) default
  next := 0
  full := false
  next_lt := by simpa using ringCapacity_pos size

def push (r : Ring) (e : Event) : Ring :=
  if h : r.next + 1 = r.places.size then
    { places := r.places.set r.next e r.next_lt, next := 0, full := true,
      next_lt := by simp [← h] }
  else
    { places := r.places.set r.next e r.next_lt, next := r.next + 1, full := r.full,
      next_lt := by
        have := r.next_lt
        rw [Array.size_set]
        omega }

/-- The events kept, oldest first. -/
def events (r : Ring) : List Event :=
  let newer := r.places.toList.take r.next
  if r.full then r.places.toList.drop r.next ++ newer else newer

/-- The lines of the events kept. -/
def dump (r : Ring) (f : Format) : Text :=
  Text.concat (r.events.map fun e => e.line f)

end Ring

/-! ## Sinks -/

/-- What a sink does with events: 1 stream, 2 ring, 3 both. -/
structure Mode where
  code : UInt8
deriving DecidableEq, Repr, Inhabited

namespace Mode

def stream : Mode := ⟨1⟩

def ring : Mode := ⟨2⟩

def both : Mode := ⟨3⟩

/-- The names of the modes from 1 on. -/
def names : List String := ["stream", "ring", "both"]

def name (m : Mode) : String :=
  if m.code = 0 then "unknown" else names.getD (m.code.toNat - 1) "unknown"

end Mode

/-- Why trace settings are refused. -/
inductive SettingError where
  | badLevel (given : Text)
  | badMode (given : Text)
  | badFormat (given : Text)
  | unknownMode (mode : Mode)
deriving DecidableEq, Repr

/-- The names that can be chosen from. -/
def choices (names : List String) : Text :=
  Text.join "|" (names.map Text.ofString)

def SettingError.message : SettingError → Text
  | badLevel t => "invalid trace level " ++ t.quoted ++ " (want " ++ choices Level.names ++ ")"
  | badMode t => "invalid trace mode " ++ t.quoted ++ " (want " ++ choices Mode.names ++ ")"
  | badFormat t => "invalid trace format " ++ t.quoted ++ " (want auto|text|ndjson)"
  | unknownMode m => "unknown trace mode " ++ m.name

/-- The position of a name in a list of names. -/
def indexOfName? (names : List String) (t : Text) : Option Nat :=
  names.findIdx? fun name => Text.ofString name = t

/-- The level of a name in any case; none is `off`. -/
def Level.parse (t : Text) : Except SettingError Level :=
  let t := t.trim.toLower
  if t.isEmpty then .ok .off
  else
    match indexOfName? Level.names t with
    | some i => .ok ⟨i.toUInt8⟩
    | none => .error (.badLevel t)

/-- The mode of a name in any case; none is `stream`. -/
def Mode.parse (t : Text) : Except SettingError Mode :=
  let t := t.trim.toLower
  if t.isEmpty then .ok .stream
  else
    match indexOfName? Mode.names t with
    | some i => .ok ⟨(i + 1).toUInt8⟩
    | none => .error (.badMode t)

/-- The format of a name in any case; none is `auto`. -/
def Format.parse (given : Text) : Except SettingError Format :=
  let t := given.trim.toLower
  if t = "" ∨ t = "auto" then .ok .auto
  else if t = "text" then .ok .text
  else if t = "ndjson" ∨ t = "json" then .ok .ndjson
  else .error (.badFormat given)

/-- What a sink is made from. -/
structure SinkOptions where
  level : Level := .off
  mode : Mode := .stream
  format : Format := .auto
  /-- The path of the stream's output. -/
  path : Text := ""
  /-- The number of places of the ring; 0 or below for the usual one. -/
  ringSize : Int := 0
deriving DecidableEq, Repr, Inhabited

/-- Where admitted events go. -/
structure Sink where
  level : Level := .off
  /-- The format of the stream, if there is one. -/
  stream : Option Format := none
  ring : Option Ring := none
deriving Inhabited

namespace Sink

/-- The sink that options ask for. -/
def ofOptions (o : SinkOptions) : Except SettingError Sink :=
  let stream := some (o.format.forPath o.path)
  if o.level = .off then .ok {}
  else if o.level = .error ∨ o.mode = .ring then
    .ok { level := o.level, ring := some (.ofSize o.ringSize) }
  else if o.mode = .stream then .ok { level := o.level, stream := stream }
  else if o.mode = .both then
    .ok { level := o.level, stream := stream, ring := some (.ofSize o.ringSize) }
  else .error (.unknownMode o.mode)

/-- Take in an event; the text is what it adds to the stream. -/
def emit (s : Sink) (e : Event) : Text × Sink :=
  if s.level.admits e.scope then
    (Text.concat (s.stream.toList.map e.line),
      { s with ring := s.ring.map fun r => r.push e })
  else ("", s)

/-- Take in events one after the other. -/
def emitAll (s : Sink) (es : List Event) : Text × Sink :=
  es.foldl (fun (t, s) e =>
    let (line, s) := s.emit e
    (t ++ line, s)) ("", s)

end Sink

end WasmBackend.Trace
