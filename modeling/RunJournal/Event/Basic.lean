import RunJournal.Json.Value

/-!
# Lifecycle events

A run is reported as a sequence of events: `before:run` once, then `before:spec` and `after:spec`
around every spec file, and `after:run` at the end. Only `after:spec` carries results: counts, a
list of **tests** with the **attempts** that each of them took, the **screenshots** taken, and
possibly a **video**. A retry that passes does not undo the failure before it: what matters for
keeping artifacts is whether any attempt failed (`TestResult.hasFailedAttempt`).
-/

namespace RunJournal

/-- One try of a test. Whatever is reported besides its state is kept as it is. -/
structure Attempt where
  /-- How the try ended. -/
  state : String
  /-- The other members, in increasing order of their names and canonical themselves. -/
  extra : List (String × Json)
deriving Repr

/-- A screenshot taken during a test. -/
structure Screenshot where
  /-- The file that holds it. -/
  path : String
  /-- The test during which it was taken. -/
  testId : String
  /-- Which attempt of the test it shows, counted from 0. -/
  attemptIndex : Nat
deriving DecidableEq, Repr

/-- The counts of a spec file. -/
structure Stats where
  tests : Nat
  passes : Nat
  failures : Nat
  pending : Nat
  skipped : Nat
deriving DecidableEq, Repr

/-- One test with its attempts. -/
structure TestResult where
  /-- What screenshots refer to the test by. -/
  testId : String
  /-- The titles of the suites around the test, followed by the title of the test. -/
  title : List String
  /-- How the test ended. -/
  state : String
  /-- Its tries, in order. -/
  attempts : List Attempt
deriving Repr

/-- What a spec file came to. -/
structure SpecResults where
  stats : Stats
  tests : List TestResult
  screenshots : List Screenshot
  /-- The file that holds the recording of the whole spec, if one was made. -/
  video : Option String
deriving Repr

/-- One event of a run. -/
inductive Event where
  | beforeRun (browser : String)
  | beforeSpec (spec : String)
  | afterSpec (spec : String) (results : SpecResults)
  | afterRun (details : Option Json)
deriving Repr

/-- The four kinds of event. -/
inductive EventKind where
  | beforeRun
  | beforeSpec
  | afterSpec
  | afterRun
deriving DecidableEq, Repr

/-- The name by which a kind of event is reported. -/
def EventKind.name : EventKind → String
  | .beforeRun => "before:run"
  | .beforeSpec => "before:spec"
  | .afterSpec => "after:spec"
  | .afterRun => "after:run"

/-- All kinds of event. -/
def EventKind.all : List EventKind := [.beforeRun, .beforeSpec, .afterSpec, .afterRun]

/-- The kind that a name stands for. -/
def EventKind.ofName? (name : String) : Option EventKind :=
  EventKind.all.find? fun kind => kind.name == name

/-- The kind of an event. -/
def Event.kind : Event → EventKind
  | .beforeRun _ => .beforeRun
  | .beforeSpec _ => .beforeSpec
  | .afterSpec _ _ => .afterSpec
  | .afterRun _ => .afterRun

/-- Whether the try failed. -/
def Attempt.hasFailed (a : Attempt) : Bool := a.state == "failed"

theorem Attempt.hasFailed_iff {a : Attempt} : a.hasFailed = true ↔ a.state = "failed" := beq_iff_eq

/-- Whether any try of the test failed, the last one or another. -/
def TestResult.hasFailedAttempt (t : TestResult) : Bool := t.attempts.any Attempt.hasFailed

/-- It takes one try with the state `failed`; how the test itself ended makes no difference. -/
theorem TestResult.hasFailedAttempt_iff {t : TestResult} :
    t.hasFailedAttempt = true ↔ ∃ a ∈ t.attempts, a.state = "failed" := by
  simp only [TestResult.hasFailedAttempt, List.any_eq_true, Attempt.hasFailed_iff]

/-- A try that was not made, or not to its end, did not fail. -/
example : (TestResult.mk "r1" ["t"] "failed" [⟨"pending", []⟩, ⟨"skipped", []⟩]).hasFailedAttempt =
    false := by decide

/-- The name a test is recorded under: the title just inside the outermost suite, or the last
title there is. -/
def TestResult.displayName (t : TestResult) : String :=
  (t.title[1]?.or t.title.getLast?).getD ""

/-- Whether any try of any test failed. -/
def SpecResults.hasFailedAttempt (r : SpecResults) : Bool := r.tests.any TestResult.hasFailedAttempt

theorem SpecResults.hasFailedAttempt_iff {r : SpecResults} :
    r.hasFailedAttempt = true ↔ ∃ t ∈ r.tests, ∃ a ∈ t.attempts, a.state = "failed" := by
  simp only [SpecResults.hasFailedAttempt, List.any_eq_true, TestResult.hasFailedAttempt_iff]

/-- The screenshots taken during the test `testId`. -/
def SpecResults.screenshotsOf (r : SpecResults) (testId : String) : List Screenshot :=
  r.screenshots.filter fun s => s.testId == testId

end RunJournal
