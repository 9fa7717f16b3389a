/-!
# Decimal integers as text

Numbers are written in base ten without leading zeros, and read back from an optional single
sign followed by one or more ASCII digits. Reading is exact for any number of digits: the range
of the result is checked on the number itself, so no digit loop can wrap.
-/

namespace RunJournal.Text

/-- The decimal digits of `n`, without leading zeros. -/
def digits (n : Nat) : List Char := Nat.toDigits 10 n

/-- An integer in decimal, with a minus sign when it is negative. -/
def integerDigits : Int → List Char
  | .ofNat n => digits n
  | .negSucc n => '-' :: digits (n + 1)

/-- The decimal digits of `n` as a string. -/
def natText (n : Nat) : String := String.ofList (digits n)

/-- An integer in decimal as a string. -/
def intText (i : Int) : String := String.ofList (integerDigits i)

/-- The value of one ASCII digit. -/
def digitValue (c : Char) : Nat := c.toNat - '0'.toNat

/-- The number that a run of ASCII digits denotes, the first digit leading. -/
def natOfDigits (cs : List Char) : Nat := cs.foldl (fun n c => 10 * n + digitValue c) 0

/-- The number denoted by one or more ASCII digits and nothing else. -/
def readNat (cs : List Char) : Option Nat :=
  if !cs.isEmpty && cs.all Char.isDigit then some (natOfDigits cs) else none

/-- The integer denoted by an optional sign and one or more ASCII digits. -/
def readInt : List Char → Option Int
  | '+' :: cs => (readNat cs).map Int.ofNat
  | '-' :: cs => (readNat cs).map fun n => -(n : Int)
  | cs => (readNat cs).map Int.ofNat

/-- The integer that an optional sign and digits denote, if it is from `low` to `high`. -/
def readIntIn (low high : Int) (cs : List Char) : Option Int :=
  (readInt cs).filter fun i => low ≤ i && i ≤ high

end RunJournal.Text
