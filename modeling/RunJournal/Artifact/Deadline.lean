/-!
# Deadlines

A reading of the monotonic clock is a number of seconds that fits 64 bits with a sign, and
nanoseconds. A deadline some seconds after a reading exists only if its own seconds still fit.
-/

namespace RunJournal

/-- A reading of the monotonic clock. -/
structure Instant where
  seconds : Int
  nanos : Nat
deriving DecidableEq, Repr

/-- The first number of seconds that no reading has, `2^63`. -/
def Instant.limit : Int := 9223372036854775808

/-- The reading `seconds` later, if the clock has it. -/
def Instant.after? (now : Instant) (seconds : Nat) : Option Instant :=
  if now.seconds + seconds < Instant.limit then some { now with seconds := now.seconds + seconds }
  else none

end RunJournal
