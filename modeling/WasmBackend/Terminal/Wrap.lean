import WasmBackend.Terminal.Sequence
import WasmBackend.Text.Printable

/-!
# Breaking lines

A text is broken into lines of at most a number of cells, at white space and behind hyphens where
it can be, and inside a word where it has to be.  White space at a break and at the end of the
text is left out.  The breaker counts by rules of its own: white space counts by its bytes, and a
control character counts as one cell.
-/

namespace WasmBackend.Terminal

/-!
## Cells on a terminal

The display width of a text counts the cells it takes on a terminal: a printed byte takes one, a
grapheme cluster as many as its characters call for, and control characters and sequences take
none.
-/

/-- The cells of a character by itself. -/
def characterCells (c : Nat) : Nat :=
  match Text.clusterClass c with
  | 1 | 2 | 3 | 4 | 5 => 0
  | 6 => 2
  | 14 => if Table.inRanges Text.colouredRanges c then 2 else 1
  | _ =>
    if c = 0x2E3A then 3
    else if c = 0x2E3B then 4
    else if Table.inRanges Text.wideRanges c then 2
    else 1

/-- The cells of a cluster.  Selectors decide how a pictograph is shown; a flag and a Hangul
syllable are as wide as their first character, and all other characters count one by one. -/
def clusterCells (cluster : Text) : Nat :=
  match cluster.pieces.map Piece.code with
  | [] => 0
  | c :: rest =>
    match Text.clusterClass c with
    | 14 =>
      rest.foldl (fun n d => if d = 0xFE0E then 1 else if d = 0xFE0F then 2 else n)
        (characterCells c)
    | 6 | 9 => characterCells c
    | _ => rest.foldl (fun n d => n + characterCells d) (characterCells c)

def Mark.cells : Mark → Nat
  | cluster t => clusterCells t
  | printed _ => 1
  | executed _ | silent _ => 0

/-- The cells a text takes. -/
def cells (t : Text) : Nat :=
  (marks t).foldl (fun n m => n + m.cells) 0

/-- The marks that are left when at most `room` more cells are shown: from the first mark on that
does not fit, only control characters and sequences are kept. -/
def keepWithin (tail : Text) : Option Nat → List Mark → List UInt8
  | _, [] => []
  | room, m :: rest =>
    match m, room with
    | .executed b, _ | .silent b, _ => b :: keepWithin tail room rest
    | _, none => keepWithin tail none rest
    | _, some n =>
      if n < m.cells then tail.bytes ++ keepWithin tail none rest
      else m.bytes ++ keepWithin tail (some (n - m.cells)) rest

/-- A text cut to a number of cells, with a tail in place of what was cut. -/
def cut (columns : Nat) (tail t : Text) : Text :=
  if cells t ≤ columns then t
  else if columns < cells tail then ""
  else ⟨keepWithin tail (some (columns - cells tail)) (marks t)⟩

/-! ## Line breakers -/

/-- A line breaker at work. -/
structure Breaker where
  /-- The most cells of a line. -/
  limit : Nat
  /-- What is already broken. -/
  written : Text := ""
  /-- The cells of the last line of it. -/
  column : Nat := 0
  /-- White space that is written once a word follows on the same line. -/
  space : Text := ""
  /-- The word that is being read. -/
  word : Text := ""
  /-- The cells of the word. -/
  wordCells : Nat := 0
deriving Repr

namespace Breaker

/-- Write the white space. -/
def addSpace (b : Breaker) : Breaker :=
  { b with written := b.written ++ b.space, column := b.column + b.space.size, space := "" }

/-- Write the word behind its white space, if there is one. -/
def addWord (b : Breaker) : Breaker :=
  if b.word.isEmpty then b
  else
    let b := b.addSpace
    { b with
      written := b.written ++ b.word, column := b.column + b.wordCells, word := ""
      wordCells := 0 }

/-- Start a line; white space is left out. -/
def addBreak (b : Breaker) : Breaker :=
  { b with written := b.written ++ "\n", column := 0, space := "" }

/-- Start a line when the word does not fit on the one under way. -/
def breakBeforeWord (b : Breaker) : Breaker :=
  if b.limit < b.column + b.wordCells + b.space.size then b.addBreak else b

/-- The white space in front of a line end is kept when it fits. -/
def settleSpace (b : Breaker) : Breaker :=
  if b.wordCells ≠ 0 then b
  else if b.limit < b.column + b.space.size then { b with column := 0, space := "" }
  else { b with written := b.written ++ b.space, space := "" }

/-- Put more into the word. -/
def extendWord (b : Breaker) (t : Text) (cells : Nat) : Breaker :=
  { b with word := b.word ++ t, wordCells := b.wordCells + cells }

/-- A white-space character. -/
def readSpace (b : Breaker) (c : Nat) : Breaker :=
  let b := b.addWord
  { b with space := b.space ++ ⟨Utf8.encode c⟩ }

/-- A printed byte or a control character. -/
def readByte (b : Breaker) (byte : UInt8) : Breaker :=
  let c := byte.toNat
  if c = 10 then b.settleSpace.addWord.addBreak
  else if Text.isBlank c then b.readSpace c
  else if c = 45 then
    let b := b.addSpace
    if b.limit ≤ b.column + b.wordCells then b.extendWord "-" 1
    else
      let b := b.addWord
      { b with written := b.written ++ "-", column := b.column + 1 }
  else
    let b := b.extendWord ⟨Utf8.encode c⟩ 1
    let b := if b.wordCells = b.limit then b.addWord else b
    b.breakBeforeWord

/-- A grapheme cluster as part of a word. -/
def readWhole (b : Breaker) (t : Text) : Breaker :=
  let cells := clusterCells t
  let b := if b.limit < b.wordCells + cells then b.addWord else b
  (b.extendWord t cells).breakBeforeWord

/-- A grapheme cluster; one that starts with white space other than the no-break space counts as
that character. -/
def readCluster (b : Breaker) (t : Text) : Breaker :=
  match t.pieces.head? with
  | some (.char c) => if Text.isBlank c && c != 0xA0 then b.readSpace c else b.readWhole t
  | _ => b.readWhole t

/-- One mark. -/
def read (b : Breaker) (m : Mark) : Breaker :=
  match m with
  | .cluster t => b.readCluster t
  | .printed byte | .executed byte => b.readByte byte
  | .silent byte => b.extendWord ⟨[byte]⟩ 0

/-- What is written once the text ends: the last word, on a line of its own if it does not fit on
the one under way. -/
def finish (b : Breaker) : Text :=
  if b.word.isEmpty then b.written else b.breakBeforeWord.addWord.written

end Breaker

/-- A text broken into lines of at most a number of cells; no cells at all break nothing.  The
white space at the end of the text is left out. -/
def wrap (limit : Nat) (t : Text) : Text :=
  if limit = 0 then t else ((marks t).foldl Breaker.read { limit := limit }).finish

end WasmBackend.Terminal
