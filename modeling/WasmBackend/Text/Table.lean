/-!
# Tables of code points

Character properties are data of the Unicode standard.  A table is written line by line, some rows
to a line; its rows have a fixed width and their first column ascends, and it is searched by
halving.
-/

namespace WasmBackend.Table

/-- The table of these lines. -/
def ofLines (lines : List (List Nat)) : Array Nat :=
  lines.flatten.toArray

/-- The number of rows, among those from `lo` up to `hi`, whose key is at most `c`; the keys
ascend. -/
def countUpTo (key : Nat → Nat) (c : Nat) : Nat → Nat → Nat → Nat
  | 0, lo, _ => lo
  | fuel + 1, lo, hi =>
    if lo < hi then
      let mid := (lo + hi) / 2
      if key mid ≤ c then countUpTo key c fuel (mid + 1) hi else countUpTo key c fuel lo mid
    else lo

/-- The last row whose first column is at most `c`. -/
def lastRow? (width : Nat) (table : Array Nat) (c : Nat) : Option Nat :=
  let n := countUpTo (fun i => table.getD (width * i) 0) c 32 0 (table.size / width)
  if n = 0 then none else some (n - 1)

/-- Whether `c` is in one of the ranges of a two-column table. -/
def inRanges (table : Array Nat) (c : Nat) : Bool :=
  match lastRow? 2 table c with
  | some i => c ≤ table.getD (2 * i + 1) 0
  | none => false

/-- The third column of the range `c` is in. -/
def rangeValue? (table : Array Nat) (c : Nat) : Option Nat :=
  match lastRow? 3 table c with
  | some i => if c ≤ table.getD (3 * i + 1) 0 then some (table.getD (3 * i + 2) 0) else none
  | none => none

/-- The row whose first column is `c`. -/
def row? (width : Nat) (table : Array Nat) (c : Nat) : Option Nat :=
  match lastRow? width table c with
  | some i => if table.getD (width * i) 0 = c then some i else none
  | none => none

end WasmBackend.Table
