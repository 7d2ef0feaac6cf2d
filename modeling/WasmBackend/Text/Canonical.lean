import WasmBackend.Text.CanonicalData
import WasmBackend.Text.Utf8

/-!
# Canonical composition

`composed` brings a text into canonical composed form: characters are replaced by their canonical
mappings, combining marks are sorted by class within each run, and pairs are put together again
wherever a primary composite exists.  Bytes that are no characters stay as they are and separate
what stands around them.  A run of more than thirty combining marks is broken by a joiner, which
bounds the work per character.

Pairs are put together within a segment, which is a character with what clings to it.  The base
that marks join moves on to a later character of class 0 only when a character that can join
stands directly behind that one.
-/

namespace WasmBackend.Text

/-- The canonical combining class; 0 for characters that start a sequence. -/
def combiningClass (c : Nat) : Nat :=
  if c < 0x300 then 0 else (Table.rangeValue? combiningRanges c).getD 0

/-- The full canonical mapping of a character, with `fuel` replacements left. -/
def canonicalMapping : Nat → Nat → List Nat
  | 0, c => [c]
  | fuel + 1, c =>
    if c < 0xC0 then [c]
    else if 0xAC00 ≤ c ∧ c ≤ 0xD7A3 then
      let s := c - 0xAC00
      let lead := [0x1100 + s / 588, 0x1161 + s % 588 / 28]
      if s % 28 = 0 then lead else lead ++ [0x11A7 + s % 28]
    else
      match Table.row? 3 canonicalMappings c with
      | some i =>
        let first := canonicalMapping fuel (canonicalMappings.getD (3 * i + 1) c)
        let second := canonicalMappings.getD (3 * i + 2) 0
        if second = 0 then first else first ++ canonicalMapping fuel second
      | none => [c]

/-- The Hangul syllable of a leading consonant and a vowel, or of a syllable without a final
consonant and such a consonant. -/
def syllable? (a b : Nat) : Option Nat :=
  if 0x1100 ≤ a ∧ a ≤ 0x1112 ∧ 0x1161 ≤ b ∧ b ≤ 0x1175 then
    some (0xAC00 + ((a - 0x1100) * 21 + (b - 0x1161)) * 28)
  else if 0xAC00 ≤ a ∧ a ≤ 0xD7A3 ∧ (a - 0xAC00) % 28 = 0 ∧ 0x11A8 ≤ b ∧ b ≤ 0x11C2 then
    some (a + (b - 0x11A7))
  else none

/-- The composite of two characters other than a syllable.  Sixteen bits of each decide, so that
a character of another plane composes like the one it shares them with. -/
def composite? (a b : Nat) : Option Nat :=
  match Table.row? 2 compositePairs (a % 0x10000 * 0x10000 + b % 0x10000) with
  | some i => some (compositePairs.getD (2 * i + 1) 0)
  | none => none

/-- A character with its class, or something that separates characters. -/
inductive Glyph where
  | char (code cls : Nat)
  /-- A byte that is no character. -/
  | raw (byte : UInt8)
  /-- The joiner that breaks a long run of marks. -/
  | joiner
deriving DecidableEq, Repr

namespace Glyph

/-- The combining class of a glyph; what is no character starts a sequence. -/
def cls : Glyph → Nat
  | .char _ k => k
  | _ => 0

/-- The bytes of a glyph. -/
def bytes : Glyph → List UInt8
  | .char c _ => Utf8.encode c
  | .raw b => [b]
  | .joiner => Utf8.encode 0x34F

/-- Whether a glyph can be the second of a pair. -/
def canJoin : Glyph → Bool
  | .char c _ => 0x300 ≤ c && Table.inRanges joiningRanges c
  | _ => false

/-- Whether a glyph counts as a mark: it has a class, or it can join. -/
def isMark (g : Glyph) : Bool :=
  g.cls ≠ 0 || g.canJoin

/-- Whether a glyph starts a segment. -/
def startsSegment (g : Glyph) : Bool :=
  !g.isMark &&
    match g with
    | .char c _ => c < 0x300 || !Table.inRanges clingingRanges c
    | _ => true

/-- Whether a glyph is a Hangul vowel or final consonant. -/
def closesSyllable : Glyph → Bool
  | .char c _ => (0x1161 ≤ c && c ≤ 0x1175) || (0x11A8 ≤ c && c ≤ 0x11C2)
  | _ => false

/-- Two glyphs as one, by a rule for characters. -/
def join? (rule : Nat → Nat → Option Nat) : Glyph → Glyph → Option Glyph
  | .char a _, .char b _ => (rule a b).map fun c => .char c 0
  | _, _ => none

end Glyph

/-- The longest run of combining marks that is left unbroken. -/
def longestMarkRun : Nat := 30

/-- How many marks a character starts with. -/
def leadingMarks (c : Nat) (mapping : List Glyph) : Nat :=
  if Table.inRanges clingingRanges c then 1 else (mapping.takeWhile Glyph.isMark).length

/-- How many marks a character ends in. -/
def trailingMarks (c : Nat) (mapping : List Glyph) : Nat :=
  (Table.rangeValue? trailingRanges c).getD (mapping.reverse.takeWhile Glyph.isMark).length

/-- Canonical mappings in place of characters; `run` counts the marks before. -/
def decomposedFrom (run : Nat) : List Piece → List Glyph
  | [] => []
  | .bad b :: rest => .raw b :: decomposedFrom 0 rest
  | .char c :: rest =>
    let glyphs := (canonicalMapping 4 c).map fun d => Glyph.char d (combiningClass d)
    let leading := leadingMarks c glyphs
    if leading = 0 then glyphs ++ decomposedFrom (trailingMarks c glyphs) rest
    else if longestMarkRun < run + leading then
      .joiner :: glyphs ++ decomposedFrom leading rest
    else glyphs ++ decomposedFrom (run + leading) rest

/-- Put a mark behind the marks of a reversed run that do not exceed its class. -/
def insertMark (g : Glyph) : List Glyph → List Glyph
  | [] => [g]
  | h :: rest => if g.cls < h.cls then h :: insertMark g rest else g :: h :: rest

/-- Marks sorted by class within each run; both accumulators are reversed. -/
def reorder (done run : List Glyph) : List Glyph → List Glyph
  | [] => (run ++ done).reverse
  | g :: rest =>
    if g.cls = 0 then reorder (g :: (run ++ done)) [] rest else reorder done (insertMark g run) rest

/-- Put syllables together: a vowel or final consonant joins what stands directly in front of it.
`done` is reversed. -/
def joinSyllables (done : List Glyph) : List Glyph → List Glyph
  | [] => done.reverse
  | g :: rest =>
    match done with
    | [] => joinSyllables [g] rest
    | last :: before =>
      match last.join? syllable? g with
      | some whole => joinSyllables (whole :: before) rest
      | none => joinSyllables (g :: done) rest

/-- Put composites together behind `base`, the character that marks join.  `kept` is what stands
behind it, reversed, and `done` everything before, reversed.  From the first Hangul vowel or final
consonant on only syllables are put together. -/
def composeFrom (done : List Glyph) (base : Glyph) (kept : List Glyph) : List Glyph → List Glyph
  | [] => (kept ++ base :: done).reverse
  | g :: rest =>
    if g.closesSyllable then joinSyllables (kept ++ base :: done) (g :: rest)
    else if !g.canJoin then composeFrom done base (g :: kept) rest
    else
      match kept with
      | [] =>
        match base.join? composite? g with
        | some whole => composeFrom done whole [] rest
        | none => composeFrom done base [g] rest
      | last :: before =>
        if last.cls = 0 then
          match last.join? composite? g with
          | some whole => composeFrom (before ++ base :: done) whole [] rest
          | none => composeFrom (before ++ base :: done) last [g] rest
        else
          match if g.cls ≤ last.cls then none else base.join? composite? g with
          | some whole => composeFrom done whole kept rest
          | none => composeFrom done base (g :: kept) rest

/-- Put the composites of a segment together. -/
def composeSegment : List Glyph → List Glyph
  | [] => []
  | g :: rest => composeFrom [] g [] rest

/-- The segments of a text; a joiner is one of its own. -/
def segments (glyphs : List Glyph) : List (List Glyph) :=
  glyphs.splitBy fun g next => g != .joiner && !next.startsSegment

/-- The bytes before and from a sequence whose leading byte asks for more bytes than are left. -/
def splitTruncated : List UInt8 → List UInt8 × List UInt8
  | [] => ([], [])
  | b :: rest =>
    let wanted := if b < 0xC2 then 0 else if b < 0xE0 then 1 else if b < 0xF0 then 2
      else if b < 0xF8 then 3 else 0
    if (rest.take wanted).length < wanted then ([], b :: rest)
    else
      let (whole, truncated) := splitTruncated rest
      (b :: whole, truncated)

/-- The canonical composed form of a text. -/
def composed (t : Text) : Text :=
  if t.bytes.all (· < 0x80) then t
  else
    let (whole, truncated) := splitTruncated t.bytes
    let glyphs := reorder [] [] (decomposedFrom 0 (Text.mk whole).pieces)
    ⟨((segments glyphs).flatMap composeSegment).flatMap Glyph.bytes ++ truncated⟩

/-- Whether a text is in canonical composed form. -/
def isComposed (t : Text) : Bool :=
  t.composed == t

end WasmBackend.Text
