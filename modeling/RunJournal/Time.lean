import RunJournal.Text.Digits

/-!
# Points in time

A `Timestamp` counts seconds and nanoseconds from the start of 1970 in universal time. Its text is
that of RFC 3339: a proleptic Gregorian date, the time of day, as many decimals of a second as are
needed in groups of three, and `Z`. A year outside 0 to 9999 is written with its sign.

The count knows no leap seconds. A point within one is given by the second before it, the last of its
minute, and by nanoseconds that run on past that second; its text shows a second numbered 60.

Dates are found from day numbers by the cycle of 400 years: the year is taken to begin in March,
so that a leap day is the last day of its year.
-/

namespace RunJournal

/-- A point in time: whole seconds since the start of 1970, and nanoseconds after them. -/
structure Timestamp where
  seconds : Int
  /-- Less than the nanoseconds of one second, and less than those of two within a leap second. -/
  nanos : Nat
deriving DecidableEq, Repr

/-- A date of the proleptic Gregorian calendar. -/
structure Date where
  year : Int
  month : Nat
  day : Nat
deriving DecidableEq, Repr

/-- The date of a day, counted from the first of January 1970. -/
def Date.ofDay (day : Int) : Date :=
  let shifted := day + 719468
  let cycle := shifted / 146097
  let dayOfCycle := (shifted % 146097).toNat
  let yearOfCycle :=
    (dayOfCycle - dayOfCycle / 1460 + dayOfCycle / 36524 - dayOfCycle / 146096) / 365
  let dayOfYear := dayOfCycle - (365 * yearOfCycle + yearOfCycle / 4 - yearOfCycle / 100)
  let fromMarch := (5 * dayOfYear + 2) / 153
  let month := if fromMarch < 10 then fromMarch + 3 else fromMarch - 9
  let year := cycle * 400 + yearOfCycle + (if month ≤ 2 then 1 else 0)
  ⟨year, month, dayOfYear - (153 * fromMarch + 2) / 5 + 1⟩

/-- A number with zeros in front up to `width` digits. -/
def padded (width n : Nat) : String :=
  let ds := Text.digits n
  String.ofList (List.replicate (width - ds.length) '0' ++ ds)

/-- A year: four digits at least, with its sign where it is outside 0 to 9999. -/
def yearText (year : Int) : String :=
  if year < 0 then "-" ++ padded 4 year.natAbs
  else if 9999 < year then "+" ++ padded 4 year.natAbs
  else padded 4 year.natAbs

/-- The decimals of a second: none, or the fewest of 3, 6 and 9 that lose nothing. -/
def decimalsText (nanos : Nat) : String :=
  if nanos = 0 then ""
  else if nanos % 1000000 = 0 then "." ++ padded 3 (nanos / 1000000)
  else if nanos % 1000 = 0 then "." ++ padded 6 (nanos / 1000)
  else "." ++ padded 9 nanos

/-- The nanoseconds of a second. -/
def nanosPerSecond : Nat := 1000000000

/-- The text of a point in time. -/
def Timestamp.text (t : Timestamp) : String :=
  let date := Date.ofDay (t.seconds / 86400)
  let second := (t.seconds % 86400).toNat
  yearText date.year ++ "-" ++ padded 2 date.month ++ "-" ++ padded 2 date.day ++ "T" ++
    padded 2 (second / 3600) ++ ":" ++ padded 2 (second / 60 % 60) ++ ":" ++
    padded 2 (second % 60 + t.nanos / nanosPerSecond) ++
    decimalsText (t.nanos % nanosPerSecond) ++ "Z"

end RunJournal
