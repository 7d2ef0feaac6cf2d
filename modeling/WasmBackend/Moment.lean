import WasmBackend.Text

/-!
# Moments and durations

A moment counts seconds and nanoseconds since 1970 in universal time and is written as a date and a
time of day.  A duration counts nanoseconds and is written in the units that suit its size.
-/

namespace WasmBackend

/-- A moment: seconds since 1970 in universal time and nanoseconds. -/
structure Instant where
  seconds : Int := 0
  nanos : Nat := 0
deriving DecidableEq, Repr, Inhabited

namespace Instant

/-- The moment a number of seconds and of nanoseconds after 1970; seconds wrap around in 64 bits. -/
def ofUnix (seconds nanos : Int) : Instant :=
  ⟨(Int64.ofInt (seconds + nanos.fdiv 1000000000)).toInt, (nanos.fmod 1000000000).toNat⟩

/-- The first second of the calendar, which spans as many seconds as 64 bits count.  Seconds before
it wrap around to the end. -/
def calendarStart : Int := -9223372028741760000

/-- The second of the calendar that a moment falls into. -/
def calendarSecond (t : Instant) : Int :=
  if t.seconds < calendarStart then t.seconds + 0x10000000000000000 else t.seconds

/-- Year, month and day of a number of days since 1970, by whole cycles of 400 years that start in
March. -/
def dateOfDays (days : Int) : Int × Nat × Nat :=
  let shifted := days + 719468
  let cycle := shifted.fdiv 146097
  let day := (shifted.fmod 146097).toNat
  let year := (day - day / 1460 + day / 36524 - day / 146096) / 365
  let dayOfYear := day - (365 * year + year / 4 - year / 100)
  let month := (5 * dayOfYear + 2) / 153
  let dayOfMonth := dayOfYear - (153 * month + 2) / 5 + 1
  let calendarMonth := if month < 10 then month + 3 else month - 9
  (cycle * 400 + year + (if calendarMonth ≤ 2 then 1 else 0), calendarMonth, dayOfMonth)

end Instant

/-- A number with leading zeros up to `width` digits. -/
def zeroPadded (width n : Nat) : Text :=
  let digits := Text.ofNat n
  Text.replicate (width - digits.size) 48 ++ digits

/-- A fraction of `places` digits with its point, without zeros at the end; nothing for zero. -/
def decimalFraction (places n : Nat) : Text :=
  let digits := (zeroPadded places n).bytes.reverse.dropWhile (· == 48)
  if digits.isEmpty then "" else "." ++ ⟨digits.reverse⟩

/-- The date and time of day of a moment, with as many digits of the second as it needs. -/
def Instant.render (t : Instant) : Text :=
  let (year, month, day) := dateOfDays (t.calendarSecond.fdiv 86400)
  let second := (t.calendarSecond.fmod 86400).toNat
  Text.onlyIf (year < 0) "-" ++ zeroPadded 4 year.natAbs ++ "-" ++ zeroPadded 2 month ++ "-"
    ++ zeroPadded 2 day ++ "T"
    ++ zeroPadded 2 (second / 3600) ++ ":" ++ zeroPadded 2 (second / 60 % 60) ++ ":"
    ++ zeroPadded 2 (second % 60) ++ decimalFraction 9 t.nanos ++ "Z"

/-- A duration in nanoseconds. -/
structure Duration where
  nanos : Int := 0
deriving DecidableEq, Repr, Inhabited

namespace Duration

/-- Whole microseconds, cut towards zero. -/
def microseconds (d : Duration) : Int :=
  d.nanos.tdiv 1000

/-- The nearest whole microsecond, a half away from zero, within 64 bits. -/
def roundedToMicroseconds (d : Duration) : Duration :=
  let size : Int := (d.nanos.natAbs + 500) / 1000 * 1000
  if d.nanos < 0 then ⟨max (-size) (-9223372036854775808)⟩
  else ⟨min size 9223372036854775807⟩

/-- The text of a duration that is not negative: below a second in one unit, from there on in
hours, minutes and seconds. -/
def magnitudeText (n : Nat) : Text :=
  if n = 0 then "0s"
  else if n < 1000 then Text.ofNat n ++ "ns"
  else if n < 1000000 then Text.ofNat (n / 1000) ++ decimalFraction 3 (n % 1000) ++ "µs"
  else if n < 1000000000 then Text.ofNat (n / 1000000) ++ decimalFraction 6 (n % 1000000) ++ "ms"
  else
    let seconds := n / 1000000000
    let minutes := seconds / 60
    let hours := minutes / 60
    Text.onlyIf (0 < hours) (Text.ofNat hours ++ "h")
      ++ Text.onlyIf (0 < minutes) (Text.ofNat (minutes % 60) ++ "m")
      ++ Text.ofNat (seconds % 60) ++ decimalFraction 9 (n % 1000000000) ++ "s"

def render (d : Duration) : Text :=
  Text.onlyIf (d.nanos < 0) "-" ++ magnitudeText d.nanos.natAbs

end Duration

end WasmBackend
