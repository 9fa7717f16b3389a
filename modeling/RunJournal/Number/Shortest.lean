import RunJournal.Number.Double
import RunJournal.Text.Digits

/-!
# The shortest decimal of a double

A double is written with the fewest decimal digits that read back as it, and of those digit
strings with the one nearest to it. The reals that round to a double form an interval around it,
ends included exactly when its significand is even. If a point of a decimal grid lies in that
interval, so does one of the two grid points next to the double, so for each number of digits two
candidates decide: the first grid with a hit wins, and of two hits the nearer.

All comparisons are between naturals: a double and the ends of its interval are put over one
common denominator.
-/

namespace RunJournal.Double

/-- A positive number and the interval of reals that round to it, over one denominator. -/
structure Interval where
  /-- Numerator of the lower end. -/
  low : Nat
  /-- Numerator of the number itself. -/
  mid : Nat
  /-- Numerator of the upper end. -/
  high : Nat
  /-- The common denominator. -/
  den : Nat
  /-- Whether the ends belong to the interval. -/
  closed : Bool
deriving Repr

/-- The interval of a nonzero double. Its lower neighbour is nearer where the significand is the
least of a binade. -/
def interval (x : Double) : Interval :=
  let m := x.significand
  let below := if m = binade && -1074 < x.exponent then 1 else 2
  let e := x.exponent - 2
  let up := if 0 ≤ e then Nat.pow 2 e.toNat else 1
  let den := if 0 ≤ e then 1 else Nat.pow 2 (-e).toNat
  { low := (4 * m - below) * up, mid := 4 * m * up, high := (4 * m + 2) * up
    den := den, closed := m % 2 = 0 }

/-- The interval with every number divided by `10^place`. -/
def Interval.shift (v : Interval) (place : Int) : Interval :=
  if 0 ≤ place then { v with den := v.den * Nat.pow 10 place.toNat }
  else
    let f := Nat.pow 10 (-place).toNat
    { v with low := v.low * f, mid := v.mid * f, high := v.high * f }

/-- Whether the natural `n` lies in the interval. -/
def Interval.contains (v : Interval) (n : Nat) : Bool :=
  if v.closed then v.low ≤ n * v.den && n * v.den ≤ v.high
  else v.low < n * v.den && n * v.den < v.high

/-- The natural next to the number that lies in its interval and is nearest to it, if there is
one; an exact tie goes to the even neighbour. -/
def Interval.nearest (v : Interval) : Option Nat :=
  let a := v.mid / v.den
  let r := v.mid % v.den
  match v.contains a, v.contains (a + 1) with
  | false, false => none
  | true, false => some a
  | false, true => some (a + 1)
  | true, true =>
    if 2 * r < v.den then some a
    else if v.den < 2 * r then some (a + 1)
    else if a % 2 = 0 then some a else some (a + 1)

/-- The number of decimal digits before the point of the number (zero or less below one): the
least `k` with `mid / den < 10^k`, searched upward from a lower bound by `fuel` steps. -/
def decimalSize (v : Interval) : Nat → Int → Int
  | 0, k => k
  | fuel + 1, k =>
    let w := v.shift k
    if w.mid < w.den then k else decimalSize v fuel (k + 1)

/-- A lower bound for `decimalSize`, from the number of binary digits. -/
def sizeBound (v : Interval) : Int :=
  let bits : Int := (v.mid.log2 : Int) - v.den.log2
  bits * 30103 / 100000 - 2

/-- The decimal `digits · 10^place` of the first grid, from `count` digits on, that has a point in
the interval; `fuel` bounds the number of grids tried. -/
def searchGrid (v : Interval) (size : Int) : Nat → Nat → Nat × Int
  | 0, count => ((v.shift (size - count)).mid / (v.shift (size - count)).den, size - count)
  | fuel + 1, count =>
    match (v.shift (size - count)).nearest with
    | some n => (n, size - count)
    | none => searchGrid v size fuel (count + 1)

/-- The decimal `n · 10^place` without trailing zeros in `n`; `fuel` bounds the number of zeros dropped. -/
def dropZeros : Nat → Nat × Int → Nat × Int
  | 0, d => d
  | fuel + 1, (n, place) => if n % 10 = 0 then dropZeros fuel (n / 10, place + 1) else (n, place)

/-- The shortest decimal of a nonzero double: its digits, and the power of ten of the last. -/
def shortest (x : Double) : Nat × Int :=
  let v := x.interval
  let size := decimalSize v 8 (sizeBound v)
  dropZeros 20 (searchGrid v size 17 1)

/-- The exponents at which numbers are written without an exponent: magnitudes from `10^-5` up
to but excluding `10^16`. -/
def isPlainExponent (leading : Int) : Bool := -5 ≤ leading && leading < 16

/-- Digits with a point after the first `whole` of them, zeros filling what is missing, and one
digit at least on either side of the point. -/
def placePoint (ds : List Char) (whole : Int) : List Char :=
  if whole ≤ 0 then ['0', '.'] ++ List.replicate (-whole).toNat '0' ++ ds
  else
    let k := whole.toNat
    let before := ds.take k ++ List.replicate (k - ds.length) '0'
    let after := ds.drop k
    before ++ '.' :: (if after.isEmpty then ['0'] else after)

/-- Digits in scientific form: a point after the first digit when there are more, and the
exponent with its sign. -/
def scientific (ds : List Char) (leading : Int) : List Char :=
  let mantissa := match ds with
    | [] => []
    | [d] => [d]
    | d :: rest => d :: '.' :: rest
  let sign := if leading < 0 then '-' else '+'
  mantissa ++ ['e', sign] ++ Text.digits leading.natAbs

/-- The text of a magnitude. -/
def magnitudeText (x : Double) : List Char :=
  if x.code = 0 then ['0', '.', '0']
  else
    let (n, place) := x.shortest
    let ds := Text.digits n
    let leading := place + ds.length - 1
    if isPlainExponent leading then placePoint ds (leading + 1) else scientific ds leading

/-- The text of a double. -/
def text (x : Double) : List Char :=
  if x.negative then '-' :: x.magnitudeText else x.magnitudeText

end RunJournal.Double
