import RunJournal.Artifact.Key
import RunJournal.Artifact.Upload
import RunJournal.Event.Printer
import RunJournal.Recorder.Notice
import RunJournal.Recorder.State

/-!
# Recording events

For each event of a run a recorder asks its store for a few rows and remembers their identifiers;
at the end of a spec it also submits the artifacts of failed tests for upload. Recording is best
effort: whatever the store answers, an event is recorded or fails, a failure is noted, and the next
event is recorded all the same.

A recorder works with any store. Everything an event does is in its `HookReport`: the outcome, the
new state of the recorder and of the store, the uploads submitted and the notices, in order.
-/

namespace RunJournal

/-- Whether an event was recorded. -/
inductive Outcome where
  | recorded
  | failed
deriving DecidableEq, Repr

/-- The name of an outcome. -/
def Outcome.name : Outcome → String
  | .recorded => "Recorded"
  | .failed => "Failed"

/-- What an event did. -/
structure HookReport (σ : Type) where
  outcome : Outcome
  state : RunState
  store : σ
  /-- The uploads submitted, in order. -/
  uploads : List Upload
  /-- The notices made, in order. -/
  notices : List Notice

variable {σ : Type}

/-- The outcome of bookkeeping. -/
def outcomeOf : Except HookError Unit → Outcome
  | .ok _ => .recorded
  | .error _ => .failed

/-- The notice of bookkeeping, if it failed. -/
def failureNotice (kind : EventKind) : Except HookError Unit → List Notice
  | .ok _ => []
  | .error cause => [.hookFailed kind cause]

/-- Records the start of a run: finds or makes the rows of the attempt and of the shard. -/
def beforeRun (store : Store σ) (identity : Identity) (browser : String) (r : RunState) (s : σ) :
    HookReport σ :=
  let r := { r with browser := some browser }
  match store (.upsertAttempt (identity.attemptRow browser)) s with
  | (.error cause, s) => ⟨.failed, r, s, [], [.hookFailed .beforeRun (.store cause)]⟩
  | (.ok attempt, s) =>
    let r := { r with attemptId := some attempt }
    match store (.upsertMatrix (identity.matrixRow attempt)) s with
    | (.error cause, s) => ⟨.failed, r, s, [], [.hookFailed .beforeRun (.store cause)]⟩
    | (.ok matrix, s) => ⟨.recorded, { r with matrixId := some matrix }, s, [], []⟩

/-- Records the start of a spec: makes its row. The row of an earlier spec is forgotten first, so
that it cannot be taken for the row of this one. -/
def beforeSpec (store : Store σ) (spec : String) (r : RunState) (s : σ) : HookReport σ :=
  let r := { r with spec := none }
  match r.matrixId with
  | none => ⟨.failed, r, s, [], [.hookFailed .beforeSpec .missingMatrix]⟩
  | some matrix =>
    match store (.insertSpec spec matrix) s with
    | (.error cause, s) => ⟨.failed, r, s, [], [.hookFailed .beforeSpec (.store cause)]⟩
    | (.ok id, s) => ⟨.recorded, { r with spec := some ⟨spec, id⟩ }, s, [], []⟩

/-- The greatest number of attempts that is told apart, `2^31 - 1`. -/
def maxRetries : Nat := 2147483647

/-- The row of a test. -/
def TestResult.row (t : TestResult) (spec : SpecId) : NewTest :=
  ⟨t.displayName, spec, t.state, (min t.attempts.length maxRetries : Nat), t.history⟩

/-- The uploads for a test: its screenshots, if any attempt failed. -/
def SpecResults.screenshotUploads (results : SpecResults) (t : TestResult) (test : TestId)
    (spec : SpecId) : List Upload :=
  if t.hasFailedAttempt then
    (results.screenshotsOf t.testId).map fun s =>
      ⟨.screenshot, s.path, screenshotKey test spec s.attemptIndex⟩
  else []

/-- The upload for a spec as a whole: its video, if any attempt of any test failed. -/
def SpecResults.videoUploads (results : SpecResults) (spec : SpecId) : List Upload :=
  match results.video with
  | some path => if results.hasFailedAttempt then [⟨.video, path, videoKey spec⟩] else []
  | none => []

/-- Makes the rows of tests up to the first that the store refuses, with the uploads for those that
were made. -/
def recordTests (store : Store σ) (results : SpecResults) (spec : SpecId) :
    List TestResult → σ → Except HookError Unit × List Upload × σ
  | [], s => (.ok (), [], s)
  | t :: rest, s =>
    match store (.insertTest (t.row spec)) s with
    | (.error cause, s) => (.error (.store cause), [], s)
    | (.ok test, s) =>
      let (result, uploads, s) := recordTests store results spec rest s
      (result, results.screenshotUploads t test spec ++ uploads, s)

/-- The notice for a spec that ends and is not the one that was started. -/
def mismatchNotice (started ended : String) : List Notice :=
  if started = ended then [] else [.specMismatch started ended]

/-- Records the end of a spec: gives its row the summary, makes the rows of its tests, and submits
what there is to see of failed attempts. -/
def afterSpec (store : Store σ) (spec : String) (results : SpecResults) (r : RunState) (s : σ) :
    HookReport σ :=
  match r.spec with
  | none => ⟨.failed, r, s, [], [.hookFailed .afterSpec (.missingSpec spec)]⟩
  | some current =>
    let mismatch := mismatchNotice current.name spec
    match store (.completeSpec current.id (SpecSummary.ofStats results.stats)) s with
    | (.error cause, s) => ⟨.failed, r, s, [], mismatch ++ [.hookFailed .afterSpec (.store cause)]⟩
    | (.ok _, s) =>
      let (result, uploads, s) := recordTests store results current.id results.tests s
      let video := match result with
        | .ok _ => results.videoUploads current.id
        | .error _ => []
      ⟨outcomeOf result, r, s, uploads ++ video, mismatch ++ failureNotice .afterSpec result⟩

/-- Makes a request of which only the success matters. -/
def perform (store : Store σ) (q : Request) (s : σ) : Except HookError Unit × σ :=
  match store q s with
  | (.error cause, s) => (.error (.store cause), s)
  | (.ok _, s) => (.ok (), s)

/-- Makes a request about the row `id`; without a row nothing is asked. -/
def performOn {α : Type} (store : Store σ) (id : Option α) (missing : HookError) (q : α → Request)
    (s : σ) : Except HookError Unit × σ :=
  match id with
  | none => (.error missing, s)
  | some id => perform store (q id) s

/-- Records the end of a run: marks the shard as done, gives the attempt its end, and closes the
store. Each is done whatever became of the one before it. -/
def afterRun (store : Store σ) (now : Timestamp) (r : RunState) (s : σ) : HookReport σ :=
  let (matrix, s) := performOn store r.matrixId .missingMatrix .finishMatrix s
  let (attempt, s) := performOn store r.attemptId .missingAttempt (.finishAttempt · now) s
  let (close, s) := perform store .close s
  let notices := [matrix, attempt, close].flatMap (failureNotice .afterRun)
  ⟨if notices.isEmpty then .recorded else .failed, { r with finished := true }, s, [], notices⟩

/-- Records an event; `now` is the time of an end of the run. -/
def recordEvent (store : Store σ) (identity : Identity) (now : Timestamp) :
    Event → RunState → σ → HookReport σ
  | .beforeRun browser => beforeRun store identity browser
  | .beforeSpec spec => beforeSpec store spec
  | .afterSpec spec results => afterSpec store spec results
  | .afterRun _ => afterRun store now

end RunJournal
