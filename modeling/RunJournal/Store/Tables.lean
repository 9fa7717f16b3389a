import RunJournal.Store.Request

/-!
# A store in memory

The four tables as lists of rows in the order in which they were made. All tables draw their
identifiers from one counter. An attempt and a shard are found by their keys before they are made,
so that any number of recorders with the same key share one row; every other row is new. A request
that fails changes nothing, and a closed store fails every request.
-/

namespace RunJournal

/-- A row of the attempts. -/
structure AttemptRow where
  id : AttemptId
  values : NewAttempt
  /-- When the attempt ended, once it has. -/
  endTime : Option Timestamp
deriving DecidableEq, Repr

/-- A row of the shards. -/
structure MatrixRow where
  id : MatrixId
  values : NewMatrix
deriving DecidableEq, Repr

/-- A row of the specs. -/
structure SpecRow where
  id : SpecId
  name : String
  matrixId : MatrixId
  /-- The counts of the spec, once it has ended. -/
  summary : Option SpecSummary
deriving DecidableEq, Repr

/-- A row of the tests. -/
structure TestRow where
  id : TestId
  values : NewTest
deriving DecidableEq, Repr

/-- The tables, the counter that identifiers come from, and whether the store was closed. -/
structure Tables where
  attempts : List AttemptRow
  matrices : List MatrixRow
  specs : List SpecRow
  tests : List TestRow
  /-- The identifier that was given last. -/
  lastId : Nat
  closed : Bool
deriving DecidableEq, Repr

namespace Tables

/-- The tables of a new store. -/
def empty : Tables := ⟨[], [], [], [], 0, false⟩

/-- The identifier that the next row gets. -/
def freshId {table : Table} (t : Tables) : RowId table := ⟨(t.lastId + 1 : Nat)⟩

/-- The attempt with the key of `row`. -/
def findAttempt (t : Tables) (row : NewAttempt) : Option AttemptRow :=
  t.attempts.find? fun r =>
    r.values.workflowId == row.workflowId && r.values.attempt == row.attempt

/-- The shard with the key of `row`. -/
def findMatrix (t : Tables) (row : NewMatrix) : Option MatrixRow :=
  t.matrices.find? fun r =>
    r.values.matrixId == row.matrixId && r.values.attemptId == row.attemptId

/-- Whether an attempt has the identifier `id`. -/
def hasAttempt (t : Tables) (id : AttemptId) : Bool := t.attempts.any fun r => r.id == id

/-- Whether a shard has the identifier `id`. -/
def hasMatrix (t : Tables) (id : MatrixId) : Bool := t.matrices.any fun r => r.id == id

/-- Whether a spec has the identifier `id`. -/
def hasSpec (t : Tables) (id : SpecId) : Bool := t.specs.any fun r => r.id == id

/-- Makes or finds an attempt. -/
def upsertAttempt (row : NewAttempt) (t : Tables) : Except StoreError AttemptId × Tables :=
  match t.findAttempt row with
  | some r => (.ok r.id, t)
  | none =>
    let id := t.freshId
    (.ok id, { t with attempts := t.attempts ++ [⟨id, row, none⟩], lastId := t.lastId + 1 })

/-- Makes or finds a shard. -/
def upsertMatrix (row : NewMatrix) (t : Tables) : Except StoreError MatrixId × Tables :=
  match t.findMatrix row with
  | some r => (.ok r.id, t)
  | none =>
    if t.hasAttempt row.attemptId then
      let id := t.freshId
      (.ok id, { t with matrices := t.matrices ++ [⟨id, row⟩], lastId := t.lastId + 1 })
    else (.error (.notFound .attempt row.attemptId.value), t)

/-- Makes a spec. -/
def insertSpec (name : String) (matrix : MatrixId) (t : Tables) :
    Except StoreError SpecId × Tables :=
  if t.hasMatrix matrix then
    let id := t.freshId
    (.ok id, { t with specs := t.specs ++ [⟨id, name, matrix, none⟩], lastId := t.lastId + 1 })
  else (.error (.notFound .matrix matrix.value), t)

/-- Gives a spec its summary; an earlier one is replaced. -/
def completeSpec (spec : SpecId) (summary : SpecSummary) (t : Tables) :
    Except StoreError Unit × Tables :=
  if t.hasSpec spec then
    (.ok (), { t with specs := t.specs.map fun r =>
      if r.id = spec then { r with summary := some summary } else r })
  else (.error (.notFound .specs spec.value), t)

/-- Makes a test. -/
def insertTest (row : NewTest) (t : Tables) : Except StoreError TestId × Tables :=
  if t.hasSpec row.specId then
    let id := t.freshId
    (.ok id, { t with tests := t.tests ++ [⟨id, row⟩], lastId := t.lastId + 1 })
  else (.error (.notFound .specs row.specId.value), t)

/-- Marks a shard as done. -/
def finishMatrix (matrix : MatrixId) (t : Tables) : Except StoreError Unit × Tables :=
  if t.hasMatrix matrix then
    (.ok (), { t with matrices := t.matrices.map fun r =>
      if r.id = matrix then { r with values := { r.values with status := .done } } else r })
  else (.error (.notFound .matrix matrix.value), t)

/-- Gives an attempt the time of its end; an earlier one is replaced. -/
def finishAttempt (attempt : AttemptId) (endTime : Timestamp) (t : Tables) :
    Except StoreError Unit × Tables :=
  if t.hasAttempt attempt then
    (.ok (), { t with attempts := t.attempts.map fun r =>
      if r.id = attempt then { r with endTime := some endTime } else r })
  else (.error (.notFound .attempt attempt.value), t)

/-- How tables that are not closed answer a request. -/
def serve : Store Tables
  | .upsertAttempt row, t => t.upsertAttempt row
  | .upsertMatrix row, t => t.upsertMatrix row
  | .insertSpec name matrix, t => t.insertSpec name matrix
  | .completeSpec spec summary, t => t.completeSpec spec summary
  | .insertTest row, t => t.insertTest row
  | .finishMatrix matrix, t => t.finishMatrix matrix
  | .finishAttempt attempt endTime, t => t.finishAttempt attempt endTime
  | .close, t => (.ok (), { t with closed := true })

/-- The store in memory. -/
def store : Store Tables := fun q t =>
  if t.closed then (.error .closed, t) else serve q t

end Tables

end RunJournal
