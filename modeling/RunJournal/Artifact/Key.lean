import RunJournal.Store.Row
import RunJournal.Text.Digits

/-!
# Keys of artifacts

A screenshot is kept under the identifiers of its test and its spec and the number of the attempt
that it shows, counted from 1; a video under the identifier of its spec.
-/

namespace RunJournal

/-- The key of a screenshot of the attempt `attemptIndex`, counted from 0. The index in an event has
32 bits, and the greatest one, 4294967295, has no successor among them: it is set aside, and what
this says for it is not its key. -/
def screenshotKey (test : TestId) (spec : SpecId) (attemptIndex : Nat) : String :=
  Text.intText test.value ++ "_" ++ Text.intText spec.value ++ "_" ++
    Text.natText (attemptIndex + 1)

/-- The key of the video of a spec. -/
def videoKey (spec : SpecId) : String := Text.intText spec.value

end RunJournal
