import RunJournal.Store.Request

/-!
# Statements

What is asked of the database, as values. A statement has a text with numbered places and a list of
parameters for them; the text depends only on the kind of statement, so nothing that a run reports
ever becomes part of it.
-/

namespace RunJournal

/-- A parameter of a statement. -/
inductive Param where
  | int (value : Int)
  | text (value : String)
  | time (value : Timestamp)
deriving DecidableEq, Repr

/-- A statement. -/
inductive Statement where
  /-- Make an attempt unless there is one with its key. -/
  | insertAttempt (row : NewAttempt)
  /-- Find the attempt with a key. -/
  | selectAttempt (workflowId attempt : Int)
  /-- Make a shard unless there is one with its key. -/
  | insertMatrix (row : NewMatrix)
  /-- Find the shard with a key. -/
  | selectMatrix (matrixId : String) (attempt : AttemptId)
  /-- Make a spec. -/
  | insertSpec (name : String) (matrix : MatrixId)
  /-- Give a spec its summary. -/
  | completeSpec (spec : SpecId) (summary : SpecSummary)
  /-- Make a test. -/
  | insertTest (row : NewTest)
  /-- Mark a shard as done. -/
  | finishMatrix (matrix : MatrixId)
  /-- Give an attempt its end. -/
  | finishAttempt (attempt : AttemptId) (endTime : Timestamp)
  /-- Define a part of the schema. -/
  | define (text : String)
deriving DecidableEq, Repr

/-- The text of a statement. -/
def Statement.sql : Statement → String
  | .insertAttempt _ =>
    "INSERT INTO public.attempt (\"workflowId\", \"attempt\", \"browser\", \"os\", \"repo\", " ++
      "\"committer\", \"type\", \"commitMsg\", \"branch\") " ++
      "VALUES ($1, $2, $3, $4, $5, $6, $7, $8, $9) " ++
      "ON CONFLICT (\"workflowId\", attempt) DO NOTHING RETURNING id"
  | .selectAttempt _ _ =>
    "SELECT id FROM public.attempt WHERE \"workflowId\" = $1 AND attempt = $2"
  | .insertMatrix _ =>
    "INSERT INTO public.matrix (\"workflowId\", \"matrixId\", \"status\", \"attemptId\") " ++
      "VALUES ($1, $2, $3, $4) " ++
      "ON CONFLICT (\"matrixId\", \"attemptId\") DO NOTHING RETURNING id"
  | .selectMatrix _ _ =>
    "SELECT id FROM public.matrix WHERE \"matrixId\" = $1 AND \"attemptId\" = $2"
  | .insertSpec _ _ =>
    "INSERT INTO public.specs (\"name\", \"matrixId\") VALUES ($1, $2) RETURNING id"
  | .completeSpec _ _ =>
    "UPDATE public.specs SET \"testCount\" = $1, \"passes\" = $2, \"failed\" = $3, " ++
      "\"skipped\" = $4, \"pending\" = $5, \"status\" = $6 WHERE id = $7"
  | .insertTest _ =>
    "INSERT INTO public.tests (\"name\", \"specId\", \"status\", \"retries\", \"retryData\") " ++
      "VALUES ($1, $2, $3, $4, $5::jsonb) RETURNING id"
  | .finishMatrix _ => "UPDATE public.matrix SET \"status\" = $1 WHERE id = $2"
  | .finishAttempt _ _ => "UPDATE public.attempt SET \"endTime\" = $1 WHERE \"id\" = $2"
  | .define text => text

/-- The parameters of a statement. -/
def Statement.params : Statement → List Param
  | .insertAttempt row =>
    [.int row.workflowId, .int row.attempt, .text row.browser, .text row.os, .text row.repo,
      .text row.committer, .text row.runType, .text row.commitMsg, .text row.branch]
  | .selectAttempt workflowId attempt => [.int workflowId, .int attempt]
  | .insertMatrix row =>
    [.int row.workflowId, .text row.matrixId, .text row.status.name, .int row.attemptId.value]
  | .selectMatrix matrixId attempt => [.text matrixId, .int attempt.value]
  | .insertSpec name matrix => [.text name, .int matrix.value]
  | .completeSpec spec s =>
    [.int s.testCount, .int s.passes, .int s.failed, .int s.skipped, .int s.pending,
      .text s.status.name, .int spec.value]
  | .insertTest row =>
    [.text row.name, .int row.specId.value, .text row.status, .int row.retries,
      .text row.retryData]
  | .finishMatrix matrix => [.text MatrixStatus.done.name, .int matrix.value]
  | .finishAttempt attempt endTime => [.time endTime, .int attempt.value]
  | .define _ => []

/-- Whether a statement is answered with rows of identifiers. -/
def Statement.givesIds : Statement → Bool
  | .insertAttempt _ => true
  | .selectAttempt _ _ => true
  | .insertMatrix _ => true
  | .selectMatrix _ _ => true
  | .insertSpec _ _ => true
  | .insertTest _ => true
  | .completeSpec _ _ => false
  | .finishMatrix _ => false
  | .finishAttempt _ _ => false
  | .define _ => false

end RunJournal
