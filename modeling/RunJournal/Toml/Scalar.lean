import RunJournal.Toml.Value
import RunJournal.Toml.Text
import RunJournal.Number.Double

/-!
# Numbers, dates and words in TOML

A value without quotes and brackets is a run of letters, digits and the characters `+ - . _ :`;
it is read by deciding what the whole run denotes. Only a date may be continued after one space by
a time.

Underscores may stand between two digits. An integer has to fit 64 bits with a sign; one in base
16, 8 or 2 has no sign. A decimal has a point, an exponent or both and may not be greater than
every double; it may well be less than every double. Dates exist in the calendar, hours go to 23,
minutes to 59 and seconds to 60.
-/

namespace RunJournal.Toml

/-- The characters that a value without quotes and brackets is made of. -/
def isScalarChar (c : Char) : Bool :=
  c.isAlphanum || c == '+' || c == '-' || c == '.' || c == '_' || c == ':'

/-- One or more digits, between which single underscores may stand; without the underscores. -/
def groupedDigits? (isDigit : Char → Bool) : List Char → Option (List Char)
  | [] => none
  | [c] => if isDigit c then some [c] else none
  | c :: '_' :: rest =>
    if isDigit c then (groupedDigits? isDigit rest).map (c :: ·) else none
  | c :: rest => if isDigit c then (groupedDigits? isDigit rest).map (c :: ·) else none

/-- The digits of a whole number, which starts with zero only when it is zero. -/
def wholeDigits? (cs : List Char) : Option (List Char) :=
  (groupedDigits? Char.isDigit cs).filter fun ds => ds.head? != some '0' || ds.length == 1

/-- Whether a run begins with a minus sign, and the run without its sign. -/
def splitSign : List Char → Bool × List Char
  | '-' :: cs => (true, cs)
  | '+' :: cs => (false, cs)
  | cs => (false, cs)

/-- The integer that a run in base ten denotes. -/
def decimalInteger? (cs : List Char) : Option Int :=
  let (negative, cs) := splitSign cs
  (wholeDigits? cs).map fun ds =>
    let n : Int := Text.natOfDigits ds
    if negative then -n else n

/-- The integer that digits of another base denote. -/
def baseInteger? (base : Nat) (cs : List Char) : Option Int :=
  (groupedDigits? (fun c => (baseDigit? base c).isSome) cs).bind fun ds =>
    (ofBase? base ds).map Int.ofNat

/-- The integer that a run denotes. -/
def integer? (cs : List Char) : Option Int :=
  let i? := match cs with
    | '0' :: 'x' :: ds => baseInteger? 16 ds
    | '0' :: 'o' :: ds => baseInteger? 8 ds
    | '0' :: 'b' :: ds => baseInteger? 2 ds
    | cs => decimalInteger? cs
  i?.filter fun i => -9223372036854775808 ≤ i && i ≤ 9223372036854775807

/-- The digits at the start of a run, underscores included, and the rest of the run. -/
def spanDigits (cs : List Char) : List Char × List Char :=
  cs.span fun c => c.isDigit || c == '_'

/-- The power of ten that an exponent denotes, from its mark on. -/
def exponent? : List Char → Option Int
  | [] => some 0
  | c :: cs =>
    if c == 'e' || c == 'E' then
      let (negative, cs) := splitSign cs
      (groupedDigits? Char.isDigit cs).map fun ds =>
        let n : Int := Text.natOfDigits ds
        if negative then -n else n
    else none

/-- Whether a run is a decimal in digits that is not greater than every double. -/
def isFiniteDecimal (cs : List Char) : Bool :=
  let (negative, cs) := splitSign cs
  let (whole, cs) := spanDigits cs
  let parts := do
    let whole ← wholeDigits? whole
    match cs with
    | '.' :: cs =>
      let (fraction, cs) := spanDigits cs
      let fraction ← groupedDigits? Char.isDigit fraction
      let power ← exponent? cs
      some (whole ++ fraction, power - fraction.length)
    | [] => none
    | cs =>
      let power ← exponent? cs
      some (whole, power)
  match parts with
  | none => false
  | some (ds, power) => negative || (Double.ofDecimal (Text.natOfDigits ds) power).isSome

/-- Whether a run is a decimal: digits, or a word for what no digits denote. -/
def isDecimal (cs : List Char) : Bool :=
  let word := (splitSign cs).2
  word == ['i', 'n', 'f'] || word == ['n', 'a', 'n'] || isFiniteDecimal cs

/-- The number that two digits denote. -/
def twoDigits? (a b : Char) : Option Nat := Text.readNat [a, b]

/-- Whether a year has a leap day. -/
def isLeapYear (year : Nat) : Bool :=
  year % 4 == 0 && (year % 100 != 0 || year % 400 == 0)

/-- The number of days in a month, 0 for a month that does not exist. -/
def daysInMonth (year month : Nat) : Nat :=
  if month == 2 then (if isLeapYear year then 29 else 28)
  else if [4, 6, 9, 11].contains month then 30
  else if 1 ≤ month && month ≤ 12 then 31
  else 0

/-- Whether ten characters are a date of the calendar. -/
def isDate : List Char → Bool
  | [y, z, v, w, '-', m, n, '-', d, e] =>
    match Text.readNat [y, z, v, w], twoDigits? m n, twoDigits? d e with
    | some year, some month, some day => 1 ≤ day && day ≤ daysInMonth year month
    | _, _, _ => false
  | _ => false

/-- Whether two digits denote a number of at most `high`. -/
def upTo (high : Nat) (a b : Char) : Bool := (twoDigits? a b).any fun n => n ≤ high

/-- What follows the decimals of a second, of which there is at least one after the point. -/
def afterSecond : List Char → Option (List Char)
  | '.' :: cs =>
    if (cs.takeWhile Char.isDigit).isEmpty then none else some (cs.dropWhile Char.isDigit)
  | cs => some cs

/-- What follows a time of day at the start of a run. -/
def afterTime : List Char → Option (List Char)
  | h :: i :: ':' :: m :: n :: ':' :: s :: t :: rest =>
    if upTo 23 h i && upTo 59 m n && upTo 60 s t then afterSecond rest else none
  | _ => none

/-- Whether a run is the distance of a local time from universal time, or nothing. -/
def isOffset : List Char → Bool
  | [] => true
  | ['Z'] => true
  | ['z'] => true
  | [sign, h, i, ':', m, n] => (sign == '+' || sign == '-') && upTo 23 h i && upTo 59 m n
  | _ => false

/-- Whether a run is a time of day with or without an offset. -/
def isTimeOfDate (cs : List Char) : Bool := (afterTime cs).any isOffset

/-- Whether a run is a date, a time of day, or a date with a time after the letter T. -/
def isMoment (cs : List Char) : Bool :=
  isDate cs || afterTime cs == some [] ||
    (isDate (cs.take 10) && match cs.drop 10 with
      | 'T' :: time => isTimeOfDate time
      | 't' :: time => isTimeOfDate time
      | _ => false)

/-- The value that a run denotes. -/
def scalar? (cs : List Char) : Option Toml :=
  if cs == ['t', 'r', 'u', 'e'] then some (.bool true)
  else if cs == ['f', 'a', 'l', 's', 'e'] then some (.bool false)
  else if isMoment cs then some (.moment (String.ofList cs))
  else if isDecimal cs then some (.decimal (String.ofList cs))
  else (integer? cs).map .integer

/-- A value without quotes and brackets, and what follows it. -/
def readScalar (cs : List Char) : Option (Toml × List Char) :=
  let run := cs.takeWhile isScalarChar
  let rest := cs.dropWhile isScalarChar
  match isDate run, rest with
  | true, ' ' :: d :: more =>
    if d.isDigit then
      let time := (d :: more).takeWhile isScalarChar
      if isTimeOfDate time then
        some (.moment (String.ofList (run ++ ' ' :: time)), (d :: more).dropWhile isScalarChar)
      else none
    else some (.moment (String.ofList run), rest)
  | _, _ => (scalar? run).map (·, rest)

end RunJournal.Toml
