import RunJournal.Event.Basic
import RunJournal.Time

/-!
# Rows of the bookkeeping

What is kept of runs are rows in four tables. An **attempt** is one try of a workflow run and is
known by the run and the number of the try; a **matrix** row is one shard of an attempt; under it
stand the **specs** that the shard ran, and under each spec its **tests**. A row of one table refers
to a row of the table above it by identifier, and an identifier is of the table that it belongs to.
-/

namespace RunJournal

/-- The four tables. -/
inductive Table where
  | attempt
  | matrix
  | specs
  | tests
deriving DecidableEq, Repr

/-- The name of a table. -/
def Table.name : Table → String
  | .attempt => "attempt"
  | .matrix => "matrix"
  | .specs => "specs"
  | .tests => "tests"

/-- The identifier of a row of one table. -/
structure RowId (table : Table) where
  value : Int
deriving DecidableEq, Repr

/-- The identifier of an attempt. -/
abbrev AttemptId := RowId .attempt

/-- The identifier of a shard of an attempt. -/
abbrev MatrixId := RowId .matrix

/-- The identifier of a spec. -/
abbrev SpecId := RowId .specs

/-- The identifier of a test. -/
abbrev TestId := RowId .tests

/-- Whether a shard is at work. -/
inductive MatrixStatus where
  | started
  | done
deriving DecidableEq, Repr

/-- The name of a status. -/
def MatrixStatus.name : MatrixStatus → String
  | .started => "started"
  | .done => "done"

/-- How a spec ended. -/
inductive SpecStatus where
  | pass
  | fail
deriving DecidableEq, Repr

/-- The name of a status. -/
def SpecStatus.name : SpecStatus → String
  | .pass => "pass"
  | .fail => "fail"

/-- The values of an attempt. -/
structure NewAttempt where
  workflowId : Int
  attempt : Int
  browser : String
  os : String
  repo : String
  committer : String
  runType : String
  commitMsg : String
  branch : String
deriving DecidableEq, Repr

/-- The values of a shard of an attempt. -/
structure NewMatrix where
  workflowId : Int
  /-- What the shard is called. -/
  matrixId : String
  status : MatrixStatus
  attemptId : AttemptId
deriving DecidableEq, Repr

/-- The counts that a spec ended with. -/
structure SpecSummary where
  testCount : Nat
  passes : Nat
  failed : Nat
  pending : Nat
  skipped : Nat
  status : SpecStatus
deriving DecidableEq, Repr

/-- The summary of a spec; one failure makes it a failed spec. -/
def SpecSummary.ofStats (s : Stats) : SpecSummary :=
  ⟨s.tests, s.passes, s.failures, s.pending, s.skipped, if 0 < s.failures then .fail else .pass⟩

theorem SpecSummary.status_ofStats_eq_fail_iff {s : Stats} :
    (SpecSummary.ofStats s).status = .fail ↔ 0 < s.failures := by
  by_cases h : 0 < s.failures <;> simp [SpecSummary.ofStats, h]

/-- Tests that are pending or skipped are no failures. -/
example : (SpecSummary.ofStats ⟨3, 1, 0, 1, 1⟩).status = .pass := by decide

/-- The values of a test. -/
structure NewTest where
  name : String
  specId : SpecId
  status : String
  retries : Int
  /-- The history of the test: its attempts as JSON text. -/
  retryData : String
deriving DecidableEq, Repr

end RunJournal
