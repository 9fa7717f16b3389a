import RunJournal.Event.Basic
import RunJournal.Json.Printer

/-!
# Events as JSON

The JSON form of an event has the name of its kind in the member `event` and gives every field,
defaults included. An attempt is its state followed by its other members.

The **history** of a test is the compact text of its attempts; it is what is stored for the test.
-/

namespace RunJournal

/-- An attempt: its state, then the other members. -/
def Attempt.toJson (a : Attempt) : Json := .object (("state", .text a.state) :: a.extra)

/-- A screenshot. -/
def Screenshot.toJson (s : Screenshot) : Json :=
  .object [("path", .text s.path), ("testId", .text s.testId),
    ("testAttemptIndex", .nat s.attemptIndex)]

/-- The counts of a spec file. -/
def Stats.toJson (s : Stats) : Json :=
  .object [("tests", .nat s.tests), ("passes", .nat s.passes), ("failures", .nat s.failures),
    ("pending", .nat s.pending), ("skipped", .nat s.skipped)]

/-- A test. -/
def TestResult.toJson (t : TestResult) : Json :=
  .object [("testId", .text t.testId), ("title", .array (t.title.map .text)),
    ("state", .text t.state), ("attempts", .array (t.attempts.map Attempt.toJson))]

/-- The results of a spec file. -/
def SpecResults.toJson (r : SpecResults) : Json :=
  .object [("stats", r.stats.toJson), ("tests", .array (r.tests.map TestResult.toJson)),
    ("screenshots", .array (r.screenshots.map Screenshot.toJson)),
    ("video", .ofOption .text r.video)]

/-- A spec file, which is known by its path. -/
def specToJson (spec : String) : Json := .object [("relative", .text spec)]

/-- What is known of a run at its start. -/
def runToJson (browser : String) : Json :=
  .object [("browser", .object [("name", .text browser)])]

/-- The fields of an event. -/
def Event.fields : Event → List (String × Json)
  | .beforeRun browser => [("details", runToJson browser)]
  | .beforeSpec spec => [("spec", specToJson spec)]
  | .afterSpec spec results => [("spec", specToJson spec), ("results", results.toJson)]
  | .afterRun details => [("details", details.getD .null)]

/-- An event. -/
def Event.toJson (e : Event) : Json := .object (("event", .text e.kind.name) :: e.fields)

/-- The history of a test: the compact text of its attempts. -/
def TestResult.history (t : TestResult) : String :=
  (Json.array (t.attempts.map Attempt.toJson)).compact

end RunJournal
