import RunJournal.Store.Tables
import RunJournal.Json.Value

/-!
# Tables as JSON

Every row is an object with its identifier, its values and, where it has one, its end. The JSON
form tells everything about the tables but whether they were closed. How a time is shown is left
to the caller.
-/

namespace RunJournal

/-- An identifier as a number. -/
def RowId.toJson {table : Table} (id : RowId table) : Json := .int id.value

/-- An attempt. -/
def AttemptRow.toJson (time : Timestamp → String) (r : AttemptRow) : Json :=
  .object [("id", r.id.toJson), ("workflow_id", .int r.values.workflowId),
    ("attempt", .int r.values.attempt), ("browser", .text r.values.browser),
    ("os", .text r.values.os), ("repo", .text r.values.repo),
    ("committer", .text r.values.committer), ("run_type", .text r.values.runType),
    ("commit_msg", .text r.values.commitMsg), ("branch", .text r.values.branch),
    ("end_time", .ofOption (fun t => .text (time t)) r.endTime)]

/-- A shard. -/
def MatrixRow.toJson (r : MatrixRow) : Json :=
  .object [("id", r.id.toJson), ("workflow_id", .int r.values.workflowId),
    ("matrix_id", .text r.values.matrixId), ("status", .text r.values.status.name),
    ("attempt_id", r.values.attemptId.toJson)]

/-- The summary of a spec. -/
def SpecSummary.toJson (s : SpecSummary) : Json :=
  .object [("test_count", .nat s.testCount), ("passes", .nat s.passes),
    ("failed", .nat s.failed), ("pending", .nat s.pending), ("skipped", .nat s.skipped),
    ("status", .text s.status.name)]

/-- A spec. -/
def SpecRow.toJson (r : SpecRow) : Json :=
  .object [("id", r.id.toJson), ("name", .text r.name), ("matrix_id", r.matrixId.toJson),
    ("summary", .ofOption SpecSummary.toJson r.summary)]

/-- A test. -/
def TestRow.toJson (r : TestRow) : Json :=
  .object [("id", r.id.toJson), ("name", .text r.values.name),
    ("spec_id", r.values.specId.toJson), ("status", .text r.values.status),
    ("retries", .int r.values.retries), ("retry_data", .text r.values.retryData)]

/-- The tables, with times shown by `time`. -/
def Tables.toJson (time : Timestamp → String) (t : Tables) : Json :=
  .object [("attempts", .array (t.attempts.map (AttemptRow.toJson time))),
    ("matrices", .array (t.matrices.map MatrixRow.toJson)),
    ("next_id", .nat t.lastId),
    ("specs", .array (t.specs.map SpecRow.toJson)),
    ("tests", .array (t.tests.map TestRow.toJson))]

end RunJournal
