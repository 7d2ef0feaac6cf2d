import WasmBackend.Files.Basic
import WasmBackend.Text.Utf8

/-!
# Path patterns

A pattern is a path in which `*` stands for any bytes of a part, `?` for one character, and
brackets for one character of a class.  A pattern is checked as a whole before any directory is
looked at; its parts are then matched directory by directory.

What stands between two stars is matched at the first place where it fits, and that choice is
final.  So `*??*.x` does not match `é.x`: the two characters are taken to be `é` and the dot.
-/

namespace WasmBackend.Glob

/-- One element of a pattern. -/
inductive Element where
  | byte (b : UInt8)
  | anyChar
  | anyBytes
  /-- One character in, or if negated outside, these ranges. -/
  | charClass (negated : Bool) (ranges : List (Nat × Nat))
deriving DecidableEq, Repr, Inhabited

/-- Whether a path has characters with a meaning of their own. -/
def hasMeta (p : Text) : Bool :=
  p.bytes.any fun b => b == 42 || b == 63 || b == 91 || b == 92

/-- One character of a class, plain or behind a backslash; something has to follow it. -/
def classChar? (bytes : List UInt8) : Option (Nat × List UInt8) := do
  let plain ←
    match bytes with
    | [] => none
    | 45 :: _ => none
    | 93 :: _ => none
    | 92 :: rest => some rest
    | _ => some bytes
  match plain with
  | [] => none
  | b :: rest =>
    let (c, n) ← Utf8.first? b rest
    let rest := rest.drop n
    if rest.isEmpty then none else some (c, rest)

/-- The ranges of a class and what follows its closing bracket; the bound is the number of bytes
left. -/
def classRanges? : Nat → List (Nat × Nat) → List UInt8 → Option (List (Nat × Nat) × List UInt8)
  | 0, _, _ => none
  | bound + 1, ranges, bytes =>
    match bytes, ranges with
    | 93 :: rest, _ :: _ => some (ranges.reverse, rest)
    | _, _ => do
      let (low, rest) ← classChar? bytes
      match rest with
      | 45 :: rest =>
        let (high, rest) ← classChar? rest
        classRanges? bound ((low, high) :: ranges) rest
      | _ => classRanges? bound ((low, low) :: ranges) rest

/-- The elements of a pattern; the bound is the number of bytes left. -/
def elements? : Nat → List UInt8 → Option (List Element)
  | _, [] => some []
  | 0, _ => none
  | bound + 1, b :: rest =>
    if b = 42 then do return .anyBytes :: (← elements? bound rest)
    else if b = 63 then do return .anyChar :: (← elements? bound rest)
    else if b = 92 then
      match rest with
      | [] => none
      | c :: rest => do return .byte c :: (← elements? bound rest)
    else if b = 91 then do
      let (negated, body) :=
        match rest with
        | 94 :: body => (true, body)
        | _ => (false, rest)
      let (ranges, rest) ← classRanges? body.length [] body
      return .charClass negated ranges :: (← elements? bound rest)
    else do return .byte b :: (← elements? bound rest)

/-- The elements of a pattern, unless it is malformed. -/
def parse? (pattern : Text) : Option (List Element) :=
  elements? pattern.size pattern.bytes

/-- The character in front of a name and how many bytes it takes; a bad byte counts as the
replacement character. -/
def firstChar : UInt8 → List UInt8 → Nat × Nat := fun b rest =>
  match Utf8.first? b rest with
  | some (c, n) => (c, n + 1)
  | none => (0xFFFD, 1)

/-- A stretch of a pattern without stars, and whether a star stands in front of it. -/
structure Chunk where
  afterStar : Bool
  /-- The elements of the stretch, none of them a star. -/
  body : List Element
deriving DecidableEq, Repr

/-- Put an element in front of chunks. -/
def Chunk.push : Element → List Chunk → List Chunk
  | .anyBytes, ⟨false, body⟩ :: rest => ⟨true, body⟩ :: rest
  | .anyBytes, [] => [⟨true, []⟩]
  | .anyBytes, rest => rest
  | e, ⟨false, body⟩ :: rest => ⟨false, e :: body⟩ :: rest
  | e, rest => ⟨false, [e]⟩ :: rest

/-- The chunks of a pattern; only the last one can be empty, behind a star that ends the
pattern. -/
def chunks (elements : List Element) : List Chunk :=
  elements.foldr Chunk.push []

/-- What is left of a name once elements other than stars have taken their part of it. -/
def restAfter? : List Element → List UInt8 → Option (List UInt8)
  | [], name => some name
  | _ :: _, [] => none
  | .byte b :: more, c :: name => if b = c then restAfter? more name else none
  | .anyChar :: more, c :: name => restAfter? more ((c :: name).drop (firstChar c name).2)
  | .charClass negated ranges :: more, c :: name =>
    let (x, n) := firstChar c name
    if (ranges.any fun (low, high) => low ≤ x && x ≤ high) != negated then
      restAfter? more ((c :: name).drop n)
    else none
  | .anyBytes :: _, _ => none

/-- Whether a name without slashes matches chunks, all of it. -/
def matchesChunks : List Chunk → List UInt8 → Bool
  | [], name => name.isEmpty
  | chunk :: more, name =>
    if chunk.afterStar && chunk.body.isEmpty then true
    else
      let starts := if chunk.afterStar then List.range (name.length + 1) else [0]
      let rest? := starts.findSome? fun i =>
        (restAfter? chunk.body (name.drop i)).filter fun rest => !more.isEmpty || rest.isEmpty
      match rest? with
      | some rest => matchesChunks more rest
      | none => false

/-- Whether a name without slashes matches elements, all of it. -/
def matchesName (elements : List Element) (name : List UInt8) : Bool :=
  matchesChunks (chunks elements) name

/-- The directory part of a pattern and the pattern of the last part. -/
def split (pattern : Text) : Text × Text :=
  let file := Path.file pattern
  let dir : Text := ⟨pattern.bytes.take (pattern.size - file.size)⟩
  if dir.isEmpty then (".", file)
  else if dir = "/" then (dir, file)
  else (⟨dir.bytes.dropLast⟩, file)

variable {m : Type → Type} [Monad m] [MonadFiles m]

/-- The paths in a directory whose names match; a directory that cannot be read has none. -/
def matchesIn (dir : Text) (elements : List Element) : m (List Text) := do
  match ← isDirectory dir with
  | .ok true =>
    match ← MonadFiles.names dir with
    | .ok names =>
      return (names.filter fun n => matchesName elements n.bytes).map (Path.join dir)
    | .error _ => return []
  | _ => return []

/-- The paths a pattern matches, or nothing if it is malformed; the bound is on its depth. -/
def expandWithin : Nat → Text → m (Option (List Text))
  | 0, _ => return none
  | depth + 1, pattern => do
    if (parse? pattern).isNone then return none
    if !hasMeta pattern then
      match ← isDirectory pattern with
      | .ok _ => return some [pattern]
      | .error _ => return some []
    let (dir, file) := split pattern
    let elements := (parse? file).getD []
    match ← if hasMeta dir then expandWithin depth dir else pure (some [dir]) with
    | none => return none
    | some dirs => return some (← dirs.mapM fun d => matchesIn d elements).flatten

/-- The paths a pattern matches, or nothing if it is malformed. -/
def expand? (pattern : Text) : m (Option (List Text)) :=
  expandWithin (pattern.size + 1) pattern

end WasmBackend.Glob
