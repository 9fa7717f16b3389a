import RunJournal.Json.Value
import RunJournal.Text.Digits

/-!
# The value of a JSON numeral

A numeral without point and exponent denotes an integer, kept exactly from `-2^63` to `2^64 - 1`;
every other numeral, and `-0`, denotes a double. The double is computed from a **significand**
of at most `2^64 - 1` and a power of ten: digits that no longer fit are dropped, and one
multiplication or division of doubles applies the power. So a numeral of up to 15 digits with a
small exponent reads as the nearest double, and longer ones may miss it by the last bit.
-/

namespace RunJournal.Json

/-- The parts of a numeral as written. -/
structure Numeral where
  /-- Whether it starts with a minus sign. -/
  negative : Bool
  /-- The digits before the point. -/
  whole : List Char
  /-- The digits after the point, if there is one. -/
  fraction : Option (List Char)
  /-- Whether the exponent is negative, and its digits, if there is one. -/
  exponent : Option (Bool × List Char)
deriving DecidableEq, Repr

/-- The greatest significand, `2^64 - 1`. -/
def maxSignificand : Nat := 18446744073709551615

/-- A significand and the power of ten it is to be multiplied by; once a digit did not fit, the
digits after it are not looked at. -/
structure Scaled where
  /-- The digits taken so far, as a number. -/
  significand : Nat
  /-- The power of ten. -/
  power : Int
  /-- Whether a digit did not fit. -/
  full : Bool
deriving DecidableEq, Repr

/-- Takes one digit before the point: a digit that does not fit raises the power. -/
def Scaled.takeWhole (s : Scaled) (c : Char) : Scaled :=
  let n := s.significand * 10 + Text.digitValue c
  if s.full || maxSignificand < n then { s with power := s.power + 1, full := true }
  else { s with significand := n }

/-- Takes one digit after the point: a digit that does not fit is dropped. -/
def Scaled.takeFraction (s : Scaled) (c : Char) : Scaled :=
  let n := s.significand * 10 + Text.digitValue c
  if s.full || maxSignificand < n then { s with full := true }
  else { s with significand := n, power := s.power - 1 }

/-- The significand and power of ten of a numeral before its exponent is applied. Whether a digit
fits is asked anew after the point. -/
def Numeral.scaled (n : Numeral) : Scaled :=
  let whole := n.whole.foldl Scaled.takeWhole ⟨0, 0, false⟩
  (n.fraction.getD []).foldl Scaled.takeFraction { whole with full := false }

/-- The greatest exponent that is looked at digit by digit, `2^31 - 1`. -/
def maxExponent : Nat := 2147483647

/-- The power `10^k` as a double, for `k` from 0 to 308. -/
def powerOfTen (k : Nat) : Double := (Double.ofNat (Nat.pow 10 k)).getD .zero

/-- The magnitude `significand · 10^power`, unless it is infinite. The division of a very small
number is done in two steps, and a third one could only give zero. -/
def magnitude (significand : Nat) (power : Int) : Option Double := do
  let x ← Double.ofNat significand
  if significand = 0 || power < -616 then some .zero
  else if power < -308 then
    let y ← x.div (powerOfTen 308)
    y.div (powerOfTen (-power - 308).toNat)
  else if power < 0 then x.div (powerOfTen (-power).toNat)
  else if power ≤ 308 then x.mul (powerOfTen power.toNat)
  else none

/-- The double that a numeral with point or exponent denotes, unless it is infinite. -/
def Numeral.double (n : Numeral) : Option Double :=
  let s := n.scaled
  let magnitude := match n.exponent with
    | none => magnitude s.significand s.power
    | some (negative, ds) =>
      let e := Text.natOfDigits ds
      if maxExponent < e then
        if s.significand = 0 || negative then some .zero else none
      else magnitude s.significand (if negative then s.power - e else s.power + e)
  magnitude.map (·.withSign n.negative)

/-- The greatest magnitude of an integer with a minus sign, `2^63`. -/
def maxNegative : Nat := 9223372036854775808

/-- The number that a numeral denotes, unless it is infinite. -/
def Numeral.value (n : Numeral) : Option Number :=
  let i := Text.natOfDigits n.whole
  if n.fraction.isNone && n.exponent.isNone && i ≤ maxSignificand then
    if !n.negative then some (.integer i)
    else if i = 0 || maxNegative < i then
      (Double.ofNat i).map fun x => .real (x.withSign true)
    else some (.integer (-i))
  else n.double.map .real

end RunJournal.Json
