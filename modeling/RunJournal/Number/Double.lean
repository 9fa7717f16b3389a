/-!
# Finite double-precision numbers

A finite number of the 64-bit binary format, held as a sign and the **code** of its magnitude:
the format's bits without the sign. Codes increase with the magnitudes they stand for, so the
numbers next to one are at the next codes, and a code below `2^52` is a subnormal number. The
magnitude of a code is `significand · 2^exponent`, both recovered from the code by division.

`round` takes a quotient of naturals to the nearest double, a tie going to the even
significand; it is the one source of rounding, and is exact on any input because it computes with
naturals alone.
-/

namespace RunJournal

/-- A finite double: its sign, and the format's bits without the sign. -/
structure Double where
  /-- Whether the number carries a minus sign, zero included. -/
  negative : Bool
  /-- The bits of the magnitude. -/
  code : Nat
deriving DecidableEq, Repr

namespace Double

/-- The number of codes in a binade, `2^52`. -/
def binade : Nat := 4503599627370496

/-- The first code that stands for no finite number. -/
def codeLimit : Nat := 2047 * binade

/-- Positive zero. -/
def zero : Double := ⟨false, 0⟩

/-- The same magnitude under the given sign. -/
def withSign (x : Double) (negative : Bool) : Double := { x with negative := negative }

/-- The integer significand of the magnitude, below `2^53`. -/
def significand (x : Double) : Nat :=
  if x.code < binade then x.code else x.code % binade + binade

/-- The power of two that scales the significand. -/
def exponent (x : Double) : Int :=
  if x.code < binade then -1074 else (x.code / binade : Nat) - 1075

/-- The quotient `a / b` to the nearest natural, a tie going to the even one. -/
def divideToNearest (a b : Nat) : Nat :=
  let q := a / b
  let twice := 2 * (a % b)
  if twice < b then q
  else if b < twice then q + 1
  else if q % 2 = 0 then q else q + 1

/-- The quotient `num / den` as a pair scaled by `2^(-e)`, so that its integer part has the
digits of a significand. -/
def scaled (num den : Nat) (e : Int) : Nat × Nat :=
  if 0 ≤ e then (num, den * Nat.pow 2 e.toNat) else (num * Nat.pow 2 (-e).toNat, den)

/-- The least exponent at which `num / den` has at most 53 binary digits before the point, and
at least that of a subnormal number. -/
def fitExponent (num den : Nat) : Int :=
  let guess : Int := (num.log2 : Int) - den.log2 - 53
  let (a, b) := scaled num den guess
  let least := if a < b * (2 * binade) then guess else guess + 1
  if least < -1074 then -1074 else least

/-- The double nearest to `num / den`, unless it would be infinite. -/
def round (num den : Nat) : Option Double :=
  if num = 0 then some zero
  else
    let e := fitExponent num den
    let (a, b) := scaled num den e
    let code := (e + 1074).toNat * binade + divideToNearest a b
    if code < codeLimit then some ⟨false, code⟩ else none

/-- The magnitude of a double as a quotient of naturals. -/
def ratio (x : Double) : Nat × Nat :=
  if 0 ≤ x.exponent then (x.significand * Nat.pow 2 x.exponent.toNat, 1)
  else (x.significand, Nat.pow 2 (-x.exponent).toNat)

/-- The double nearest to a natural. -/
def ofNat (n : Nat) : Option Double := round n 1

/-- The product of two magnitudes, rounded. -/
def mul (x y : Double) : Option Double :=
  round (x.ratio.1 * y.ratio.1) (x.ratio.2 * y.ratio.2)

/-- The quotient of two magnitudes, rounded; division by zero has no finite result. -/
def div (x y : Double) : Option Double :=
  if y.code = 0 then none
  else round (x.ratio.1 * y.ratio.2) (x.ratio.2 * y.ratio.1)

/-- The double nearest to `digits · 10^exponent`, unless it would be infinite. Far outside the
range the answer is known from the number of digits alone. -/
def ofDecimal (digits : Nat) (exponent : Int) : Option Double :=
  let size : Int := (Nat.toDigits 10 digits).length + exponent
  if digits = 0 || size < -400 then some zero
  else if 400 < size then none
  else if 0 ≤ exponent then round (digits * Nat.pow 10 exponent.toNat) 1
  else round digits (Nat.pow 10 (-exponent).toNat)

end Double

end RunJournal
