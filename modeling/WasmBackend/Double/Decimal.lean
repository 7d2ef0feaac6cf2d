import WasmBackend.Double.Basic
import WasmBackend.Text

/-!
# Decimal texts of floating-point numbers

`shortest` finds the fewest significant digits that read back as the same number: on each decimal
grid, coarse to fine, it tests the two neighbours of the number against the interval of reals that
round to it.  `general` writes those digits positionally for exponents from -4 to 5 and in
scientific notation otherwise; `fixed` writes a number of places, a tie going to the even digit.
-/

namespace WasmBackend.Double

/-- Significant digits and the power of ten of the point before the first of them. -/
structure Digits where
  digits : List Nat
  point : Int
deriving DecidableEq, Repr

/-- The number of decimal digits. -/
def decimalLength (n : Nat) : Nat :=
  (Nat.toDigits 10 n).length

/-- The decimal digits of a number, most significant first. -/
def decimalDigits (n : Nat) : List Nat :=
  (Nat.toDigits 10 n).map fun c => c.toNat - 48

/-- A nonnegative rational as numerator and denominator. -/
abbrev Ratio := Nat × Nat

/-- `m * 2 ^ q` as a ratio. -/
def scaled (m : Nat) (q : Int) : Ratio :=
  if 0 ≤ q then (m <<< q.toNat, 1) else (m, 1 <<< (-q).toNat)

/-- Whether `digit * 10 ^ e` lies between the bounds. -/
def withinBounds (low high : Ratio) (inclusive : Bool) (digit : Nat) (e : Int) : Bool :=
  let (n, d) : Ratio :=
    if 0 ≤ e then (digit * Nat.pow 10 e.toNat, 1) else (digit, Nat.pow 10 (-e).toNat)
  let above := if inclusive then low.1 * d ≤ n * low.2 else low.1 * d < n * low.2
  let below := if inclusive then n * high.2 ≤ high.1 * d else n * high.2 < high.1 * d
  above && below

/-- The power of ten of the point before the first digit of a ratio. -/
def pointOf (v : Ratio) : Int :=
  let guess : Int := (decimalLength v.1 : Int) - decimalLength v.2
  let (n, d) : Ratio :=
    if 0 ≤ guess then (v.1, v.2 * Nat.pow 10 guess.toNat)
    else (v.1 * Nat.pow 10 (-guess).toNat, v.2)
  if n < d then guess else guess + 1

/-- The shortest digits from grid `n` on, with `fuel` grids left. -/
def shortestFrom (v low high : Ratio) (inclusive : Bool) (point : Int) : Nat → Nat → Digits
  | 0, _ => ⟨[0], 0⟩
  | fuel + 1, n =>
    let e := point - n
    let (num, den) : Ratio :=
      if 0 ≤ e then (v.1, v.2 * Nat.pow 10 e.toNat) else (v.1 * Nat.pow 10 (-e).toNat, v.2)
    let floor := num / den
    let rest := num % den
    let down := withinBounds low high inclusive floor e
    let up := withinBounds low high inclusive (floor + 1) e
    let pick? : Option Nat :=
      if down && up then
        if 2 * rest < den then some floor
        else if den < 2 * rest then some (floor + 1)
        else if floor % 2 = 0 then some floor else some (floor + 1)
      else if down then some floor
      else if up then some (floor + 1)
      else none
    match pick? with
    | some digits =>
      let ds := decimalDigits digits
      let kept := (ds.reverse.dropWhile (· == 0)).reverse
      ⟨kept, e + ds.length⟩
    | none => shortestFrom v low high inclusive point fuel (n + 1)

/-- The fewest digits that read back as the magnitude of a finite number. -/
def shortest (d : Double) : Digits :=
  let (m, q) := d.magnitude
  if m = 0 then ⟨[], 0⟩
  else
    let v := scaled m q
    let high := scaled (2 * m + 1) (q - 1)
    let low :=
      if m = 0x10000000000000 && q ≠ -1074 then scaled (4 * m - 1) (q - 2) else scaled (2 * m - 1) (q - 1)
    shortestFrom v low high (m % 2 = 0) (pointOf v) 20 1

/-- Digit values as a text. -/
def digitText (ds : List Nat) : Text :=
  ⟨ds.map fun d => (48 + d).toUInt8⟩

/-- Positional notation with no more digits than there are. -/
def positional (ds : Digits) : Text :=
  if ds.point ≤ 0 then
    if ds.digits.isEmpty then "0"
    else "0." ++ Text.replicate (-ds.point).toNat 48 ++ digitText ds.digits
  else
    let n := ds.point.toNat
    let whole := digitText (ds.digits.take n) ++ Text.replicate (n - ds.digits.length) 48
    if ds.digits.length ≤ n then whole else whole ++ "." ++ digitText (ds.digits.drop n)

/-- Scientific notation with a signed exponent of at least two digits. -/
def scientific (ds : Digits) : Text :=
  let e := ds.point - 1
  let mantissa :=
    if ds.digits.length ≤ 1 then digitText ds.digits
    else digitText (ds.digits.take 1) ++ "." ++ digitText (ds.digits.drop 1)
  let sign : Text := if e < 0 then "-" else "+"
  let exponent := Text.ofNat e.natAbs
  mantissa ++ "e" ++ sign ++ (if exponent.size < 2 then "0" ++ exponent else exponent)

/-- The shortest text that reads back as the number. -/
def general (d : Double) : Text :=
  if d.isNaN then "NaN"
  else if d.isInfinite then (if d.isNegative then "-Inf" else "+Inf")
  else
    let ds := d.shortest
    let e := ds.point - 1
    let body := if ds.digits ≠ [] ∧ (e < -4 ∨ 6 ≤ e) then scientific ds else positional ds
    if d.isNegative then "-" ++ body else body

/-- The number with `places` decimal places. -/
def fixed (places : Nat) (d : Double) : Text :=
  if d.isNaN then "NaN"
  else if d.isInfinite then (if d.isNegative then "-Inf" else "+Inf")
  else
    let (m, q) := d.magnitude
    let units :=
      if 0 ≤ q then (m <<< q.toNat) * Nat.pow 10 places
      else roundShift (m * Nat.pow 10 places) (-q).toNat
    let whole := Text.ofNat (units / Nat.pow 10 places)
    let part := Text.ofNat (units % Nat.pow 10 places)
    let body :=
      if places = 0 then whole
      else whole ++ "." ++ Text.replicate (places - part.size) 48 ++ part
    if d.isNegative then "-" ++ body else body

end WasmBackend.Double
