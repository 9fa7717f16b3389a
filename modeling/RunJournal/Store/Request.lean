import RunJournal.Store.Row
import RunJournal.Text.Digits

/-!
# Requests to a store

A store answers eight kinds of request, one at a time, and changes its own state in doing so. What
it keeps, and where, is its own affair: a `Store σ` is any function from a request and a state `σ`
to an answer and a state, and everything that uses a store works with any of them. The answer to a
request that makes or finds a row is the identifier of the row; a request that fails is answered
with a cause.
-/

namespace RunJournal

/-- What one may ask of a store. -/
inductive Request where
  /-- Make the attempt, or find the one with the same run and number. -/
  | upsertAttempt (row : NewAttempt)
  /-- Make the shard, or find the one with the same name in the same attempt. -/
  | upsertMatrix (row : NewMatrix)
  /-- Make a spec. -/
  | insertSpec (name : String) (matrix : MatrixId)
  /-- Give a spec its summary. -/
  | completeSpec (spec : SpecId) (summary : SpecSummary)
  /-- Make a test. -/
  | insertTest (row : NewTest)
  /-- Mark a shard as done. -/
  | finishMatrix (matrix : MatrixId)
  /-- Give an attempt the time of its end. -/
  | finishAttempt (attempt : AttemptId) (endTime : Timestamp)
  /-- Accept no more requests. -/
  | close
deriving DecidableEq, Repr

/-- What a request is answered with when it succeeds. -/
abbrev Request.Answer : Request → Type
  | .upsertAttempt _ => AttemptId
  | .upsertMatrix _ => MatrixId
  | .insertSpec _ _ => SpecId
  | .completeSpec _ _ => Unit
  | .insertTest _ => TestId
  | .finishMatrix _ => Unit
  | .finishAttempt _ _ => Unit
  | .close => Unit

/-- The kinds of request. -/
inductive RequestKind where
  | upsertAttempt
  | upsertMatrix
  | insertSpec
  | completeSpec
  | insertTest
  | finishMatrix
  | finishAttempt
  | close
deriving DecidableEq, Repr

/-- The kind of a request. -/
def Request.kind : Request → RequestKind
  | .upsertAttempt _ => .upsertAttempt
  | .upsertMatrix _ => .upsertMatrix
  | .insertSpec _ _ => .insertSpec
  | .completeSpec _ _ => .completeSpec
  | .insertTest _ => .insertTest
  | .finishMatrix _ => .finishMatrix
  | .finishAttempt _ _ => .finishAttempt
  | .close => .close

/-- What a database answers when it does not answer a statement. -/
inductive DatabaseError where
  /-- It refuses the statement or the login, with a message of its own. -/
  | refused (message : String)
  /-- It answers without a row where one is needed. -/
  | noRow
  /-- It cannot be reached. -/
  | unreachable (cause : String)
  /-- It does not speak the encrypted protocol. -/
  | notEncrypted
deriving DecidableEq, Repr

/-- The wording of a database error. -/
def DatabaseError.message : DatabaseError → String
  | .refused message => "error returned from database: " ++ message
  | .noRow => "no rows returned by a query that expected to return at least one row"
  | .unreachable cause => "error communicating with database: " ++ cause
  | .notEncrypted =>
    "error occurred while attempting to establish a TLS connection: server does not support TLS"

/-- The columns of a spec that hold counts. -/
inductive CountColumn where
  | testCount
  | passes
  | failed
  | skipped
  | pending
deriving DecidableEq, Repr

/-- The name of a column. -/
def CountColumn.name : CountColumn → String
  | .testCount => "testCount"
  | .passes => "passes"
  | .failed => "failed"
  | .skipped => "skipped"
  | .pending => "pending"

/-- Why a request fails. -/
inductive StoreError where
  /-- The database behind the store fails. -/
  | database (cause : DatabaseError)
  /-- A row was there when the new one was refused, and not when it was looked for. -/
  | conflictRowMissing (table : Table)
  /-- The row that the request refers to does not exist. -/
  | notFound (table : Table) (id : Int)
  /-- A count is too great for its column. -/
  | outOfRange (column : CountColumn) (value : Nat)
  /-- The store was closed. -/
  | closed
  /-- The store was never reached. -/
  | unavailable
deriving DecidableEq, Repr

/-- The wording of a store error. -/
def StoreError.message : StoreError → String
  | .database cause => "database error: " ++ cause.message
  | .conflictRowMissing table =>
    table.name ++ " row conflicted on insert but no existing row was found"
  | .notFound table id => table.name ++ " row " ++ Text.intText id ++ " does not exist"
  | .outOfRange column value =>
    column.name ++ " value " ++ Text.natText value ++ " does not fit an INTEGER column"
  | .closed => "database connection already closed"
  | .unavailable => "run database is unavailable"

/-- A store with states `σ`: how a request is answered, and what state it leaves behind. -/
abbrev Store (σ : Type) := (q : Request) → σ → Except StoreError q.Answer × σ

end RunJournal
