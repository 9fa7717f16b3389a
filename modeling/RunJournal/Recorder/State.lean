import RunJournal.Store.Request
import RunJournal.Identity

/-!
# The state of a recorder

A recorder remembers which rows it has made: those of its attempt and its shard, and the row of the
spec that is running. Each is remembered only while it is good for something: the row of a spec is
forgotten as soon as the next spec begins, whether or not that one gets a row.
-/

namespace RunJournal

/-- The spec that is running, with its row. -/
structure CurrentSpec where
  name : String
  id : SpecId
deriving DecidableEq, Repr

/-- What a recorder remembers. -/
structure RunState where
  /-- The browser that the run was started with. -/
  browser : Option String
  attemptId : Option AttemptId
  matrixId : Option MatrixId
  spec : Option CurrentSpec
  /-- Whether the end of the run was reported. -/
  finished : Bool
deriving DecidableEq, Repr

/-- What a recorder remembers before the first event. -/
def RunState.initial : RunState := ⟨none, none, none, none, false⟩

/-- The row of the attempt that a recorder belongs to. -/
def Identity.attemptRow (i : Identity) (browser : String) : NewAttempt :=
  ⟨i.workflowId, i.attempt, browser, i.os, i.repo, i.committer, i.runType, i.commitMsg, i.branch⟩

/-- The row of the shard that a recorder belongs to. -/
def Identity.matrixRow (i : Identity) (attempt : AttemptId) : NewMatrix :=
  ⟨i.workflowId, i.matrixId, .started, attempt⟩

/-- A running spec as JSON. -/
def CurrentSpec.toJson (s : CurrentSpec) : Json :=
  .object [("name", .text s.name), ("id", .int s.id.value)]

/-- The state of a recorder as JSON. -/
def RunState.toJson (r : RunState) : Json :=
  .object [("browser", .ofOption .text r.browser),
    ("attempt_id", .ofOption (fun id => .int id.value) r.attemptId),
    ("matrix_id", .ofOption (fun id => .int id.value) r.matrixId),
    ("spec", .ofOption CurrentSpec.toJson r.spec), ("finished", .bool r.finished)]

end RunJournal
