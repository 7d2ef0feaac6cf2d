import WasmBackend.Terminal.Wrap

/-!
# Blocks of text

A block is a rectangle of lines on a terminal.  A text is laid out as a block of a width and a
height: long lines are broken, short ones filled up with blanks.  Blocks are put side by side.
-/

namespace WasmBackend

/-- On which side a short line stands. -/
inductive Alignment where
  | left
  | right
deriving DecidableEq, Repr, Inhabited

/-- Lines above one another. -/
structure TextBlock where
  lines : List Text
deriving DecidableEq, Repr, Inhabited

namespace TextBlock

/-- The lines of a text. -/
def ofLines (t : Text) : TextBlock :=
  ⟨t.splitOn 10⟩

def toText (b : TextBlock) : Text :=
  Text.join "\n" b.lines

/-- The lines of a text; a tab takes four blanks and a carriage return before a line break
nothing. -/
def ofText (t : Text) : TextBlock :=
  let expanded : Text :=
    ⟨t.bytes.flatMap fun b => if b = 9 then List.replicate 4 32 else [b]⟩
  let lines := expanded.splitOn 10
  ⟨lines.dropLast.map (fun l => l.dropSuffix "\r") ++ lines.getLast?.toList⟩

def height (b : TextBlock) : Nat :=
  b.lines.length

/-- The cells of the widest line. -/
def width (b : TextBlock) : Nat :=
  (b.lines.map Terminal.cells).foldl max 0

/-- The lines broken into lines of at most a number of cells. -/
def wrap (b : TextBlock) (limit : Nat) : TextBlock :=
  ofLines (Terminal.wrap limit b.toText)

/-- Every line filled with blanks up to a width, and up to the widest of them. -/
def fill (b : TextBlock) (columns : Nat) (align : Alignment) : TextBlock :=
  let columns := max columns b.width
  ⟨b.lines.map fun l =>
    let blanks := Text.replicate (columns - Terminal.cells l) 32
    match align with
    | .left => l ++ blanks
    | .right => blanks ++ l⟩

/-- Empty lines below up to a height. -/
def extend (b : TextBlock) (rows : Nat) : TextBlock :=
  ⟨b.lines ++ List.replicate (rows - b.height) {}⟩

/-- Blanks on both sides of every line. -/
def pad (b : TextBlock) (columns : Nat) : TextBlock :=
  let blanks := Text.replicate columns 32
  ⟨b.lines.map fun l => blanks ++ l ++ blanks⟩

/-- No line beyond a width and no lines beyond a height. -/
def crop (b : TextBlock) (columns rows : Nat) : TextBlock :=
  ⟨(b.lines.take rows).map (Terminal.cut columns "")⟩

/-- A text as a block that is as large as it needs to be, with blanks on both sides. -/
def natural (padding : Nat) (t : Text) : TextBlock :=
  ((ofText t).pad padding).fill 0 .left

/-- A text as a block of a width and a height, with blanks on both sides. -/
def sized (padding columns rows : Nat) (align : Alignment) (t : Text) : TextBlock :=
  let broken := (ofText t).wrap (columns - 2 * padding)
  (((broken.pad padding).extend rows).fill columns align).crop columns rows

/-- A text as lines of equal width. -/
def layOut (t : Text) : Text :=
  (natural 0 t).toText

/-- Blocks side by side on a number of lines; every block takes its full width on every line. -/
def beside (rows : Nat) (bs : List TextBlock) : TextBlock :=
  let filled := bs.map fun b => b.fill 0 .left
  ⟨(List.range rows).map fun i => Text.concat (filled.map fun b => b.lines.getD i "")⟩

end TextBlock

/-!
## Boxed tables

A boxed table puts a frame of lines around rows of cells.  A column is as wide as its widest cell,
and a row as high as its highest one.
-/

/-- A table with a header row and a frame with rounded corners. -/
structure BoxedTable where
  headers : List Text
  rows : List (List Text)
  /-- How the cells of each column stand; headers stand on the left. -/
  alignments : List Alignment
deriving Repr, Inhabited

namespace BoxedTable

/-- The blanks on both sides of a cell. -/
def padding : Nat := 1

/-- The width of each column. -/
def widths (t : BoxedTable) : List Nat :=
  (List.range t.headers.length).map fun i =>
    ((t.headers :: t.rows).map fun r =>
      ((r[i]?).map fun c => (TextBlock.natural padding c).width).getD 0).foldl max 0

/-- The height of a row. -/
def rowHeight (row : List Text) : Nat :=
  (row.map fun c => (TextBlock.natural padding c).height).foldl max 0

/-- A horizontal line of the frame. -/
def rule (widths : List Nat) (left middle right : Text) : Text :=
  left ++ Text.join middle (widths.map fun w => Text.concat (List.replicate w "─")) ++ right

/-- The lines of one row; a cell that has more cells than fit at all is cut. -/
def rowLines (widths : List Nat) (aligns : List Alignment) (row : List Text) : List Text :=
  let rows := rowHeight row
  let border : TextBlock := ⟨List.replicate rows "│"⟩
  let blocks := (row.zip (widths.zip aligns)).map fun (c, w, a) =>
    TextBlock.sized padding w rows a (Terminal.cut (w * rows) "…" c)
  (TextBlock.beside rows (border :: blocks.flatMap fun b => [b, border])).lines

/-- The lines of the table, all of one width. -/
def render (t : BoxedTable) : Text :=
  let widths := t.widths
  let leftAligned := t.headers.map fun _ => Alignment.left
  let lines := [rule widths "╭" "┬" "╮"] ++ rowLines widths leftAligned t.headers
    ++ [rule widths "├" "┼" "┤"] ++ t.rows.flatMap (rowLines widths t.alignments)
    ++ [rule widths "╰" "┴" "╯"]
  ((TextBlock.mk lines).fill 0 .left).toText

end BoxedTable

end WasmBackend
