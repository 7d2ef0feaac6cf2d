import WasmBackend.Text.Cluster

/-!
# What a terminal does with bytes

A terminal shows some of the bytes it is sent and obeys others: control characters, and sequences
that an escape character starts.  A mode tells which part of a sequence is being read; one step
takes a byte and gives the next mode and what becomes of the byte.  From this a text is cut into
marks, each of which is shown, executed, or silent.
-/

namespace WasmBackend.Terminal

/-- What a terminal expects next. -/
inductive Mode where
  /-- Outside of any sequence. -/
  | ground
  /-- Behind an escape character. -/
  | escape
  | escapeIntermediate
  /-- Behind the introducer of a control sequence. -/
  | controlEntry
  | controlParameter
  | controlIntermediate
  /-- Behind the introducer of a device control string. -/
  | deviceEntry
  | deviceParameter
  | deviceIntermediate
  | deviceString
  /-- In a string for the operating system. -/
  | systemString
  /-- In a string that every terminal passes over. -/
  | otherString
deriving DecidableEq, Repr, Inhabited

/-- What becomes of a byte. -/
inductive Effect where
  /-- It is shown in a cell of its own. -/
  | printed
  /-- It is a control character that is obeyed at once. -/
  | executed
  /-- It is part of a sequence, or means nothing. -/
  | silent
  /-- It starts a character of several bytes. -/
  | character
deriving DecidableEq, Repr, Inhabited

/-- Whether a byte is a control character that cuts no sequence off. -/
def isPlainControl (b : UInt8) : Bool :=
  b < 0x20 && b != 0x18 && b != 0x1A && b != 0x1B

/-- Whether a byte is in a closed range. -/
def within (lo hi b : UInt8) : Bool :=
  lo ≤ b && b ≤ hi

/-- What a byte does in every mode that says nothing else about it. -/
def stepAnywhere (b : UInt8) : Mode × Effect :=
  if b = 0x1B then (.escape, .silent)
  else if b = 0x18 ∨ b = 0x1A ∨ b = 0x99 ∨ b = 0x9A ∨ b = 0x9C then (.ground, .executed)
  else if b = 0x90 then (.deviceEntry, .silent)
  else if within 0x80 0x97 b then (.ground, .executed)
  else if b = 0x98 ∨ b = 0x9E ∨ b = 0x9F then (.otherString, .silent)
  else if b = 0x9B then (.controlEntry, .silent)
  else if b = 0x9D then (.systemString, .silent)
  else if within 0xC2 0xF4 b then (.ground, .character)
  else (.ground, .silent)

/-- The end of a string, if a byte is one: an escape character starts the next sequence. -/
def endOfString? (b : UInt8) : Option (Mode × Effect) :=
  if b = 0x1B then some (.escape, .silent)
  else if b = 0x9C ∨ b = 0x18 ∨ b = 0x1A then some (.ground, .silent)
  else none

/-- One byte. -/
def Mode.step (m : Mode) (b : UInt8) : Mode × Effect :=
  match m with
  | ground =>
    if isPlainControl b || b == 0x7F then (ground, .executed)
    else if within 0x20 0x7E b then (ground, .printed)
    else stepAnywhere b
  | escape =>
    if isPlainControl b then (escape, .executed)
    else if b = 0x7F then (escape, .silent)
    else if within 0x20 0x2F b then (escapeIntermediate, .silent)
    else if b = 0x50 then (deviceEntry, .silent)
    else if b = 0x58 ∨ b = 0x5E ∨ b = 0x5F then (otherString, .silent)
    else if b = 0x5B then (controlEntry, .silent)
    else if b = 0x5D then (systemString, .silent)
    else if within 0x30 0x7E b then (ground, .silent)
    else stepAnywhere b
  | escapeIntermediate =>
    if isPlainControl b then (m, .executed)
    else if within 0x20 0x2F b || b == 0x7F then (m, .silent)
    else if within 0x30 0x7E b then (ground, .silent)
    else stepAnywhere b
  | controlEntry | controlParameter =>
    if isPlainControl b then (m, .executed)
    else if b = 0x7F then (m, .silent)
    else if within 0x20 0x2F b then (controlIntermediate, .silent)
    else if within 0x30 0x3F b then (controlParameter, .silent)
    else if within 0x40 0x7E b then (ground, .silent)
    else stepAnywhere b
  | controlIntermediate =>
    if isPlainControl b then (m, .executed)
    else if within 0x20 0x2F b || b == 0x7F then (m, .silent)
    else if within 0x30 0x7E b then (ground, .silent)
    else stepAnywhere b
  | deviceEntry =>
    if within 0x08 0x0D b || b == 0x1B then (deviceString, .silent)
    else if isPlainControl b || b == 0x7F then (m, .silent)
    else if within 0x20 0x2F b then (deviceIntermediate, .silent)
    else if within 0x30 0x3F b then (deviceParameter, .silent)
    else if within 0x40 0x7E b then (deviceString, .silent)
    else stepAnywhere b
  | deviceParameter =>
    if isPlainControl b || within 0x30 0x3F b || b == 0x7F then (m, .silent)
    else if within 0x20 0x2F b then (deviceIntermediate, .silent)
    else if within 0x40 0x7E b then (deviceString, .silent)
    else stepAnywhere b
  | deviceIntermediate =>
    if isPlainControl b || within 0x20 0x2F b || b == 0x7F then (m, .silent)
    else if within 0x30 0x7E b then (deviceString, .silent)
    else stepAnywhere b
  | deviceString => (endOfString? b).getD (m, .silent)
  | systemString =>
    if b = 0x07 then (ground, .silent) else (endOfString? b).getD (m, .silent)
  | otherString =>
    match endOfString? b with
    | some next => next
    | none => if b < 0x80 then (m, .silent) else stepAnywhere b

/-- A part of a text that a terminal treats as one. -/
inductive Mark where
  /-- A grapheme cluster. -/
  | cluster (t : Text)
  /-- A byte that is shown. -/
  | printed (byte : UInt8)
  /-- A control character. -/
  | executed (byte : UInt8)
  /-- A byte that shows nothing. -/
  | silent (byte : UInt8)
deriving DecidableEq, Repr

def Mark.bytes : Mark → List UInt8
  | cluster t => t.bytes
  | printed b | executed b | silent b => [b]

/-- The marks of a byte string that is read in a mode. -/
def marksFrom (m : Mode) : List UInt8 → List Mark
  | [] => []
  | b :: rest =>
    let (next, effect) := m.step b
    match effect with
    | .printed => .printed b :: marksFrom next rest
    | .executed => .executed b :: marksFrom next rest
    | .silent => .silent b :: marksFrom next rest
    | .character =>
      let n := Text.firstClusterRest Text.strictClass b rest
      .cluster ⟨b :: rest.take n⟩ :: marksFrom next (rest.drop n)
termination_by bytes => bytes.length
decreasing_by
  all_goals simp only [List.length_drop, List.length_cons]
  all_goals omega

/-- The marks of a text. -/
def marks (t : Text) : List Mark :=
  marksFrom .ground t.bytes

/-- Marks only cut a text: one after another they give it back. -/
theorem flatMap_bytes_marksFrom (m : Mode) (bytes : List UInt8) :
    (marksFrom m bytes).flatMap Mark.bytes = bytes := by
  fun_induction marksFrom m bytes <;> simp_all [Mark.bytes]

end WasmBackend.Terminal
