import RunJournal.Database.Schema
import RunJournal.Settings

/-!
# The gateway to the database

A store that keeps its rows in a database. It holds one link to a server for as long as the
recording lasts, and turns a request into a **dialogue**: a statement, then what to do with the
reply. A dialogue is a value and fixes nothing about the server, so one may run it against a server
alone (`Dialogue.run`), or take the statements of several gateways in any order.

Making or finding a row takes one statement when the row is new, and a second one when it is not:
the first makes the row unless its key is taken and answers with nothing then, the second finds the
row that has the key.
-/

namespace RunJournal

/-- What a server replies to a statement: rows of one identifier each, or an error. -/
abbrev Reply := Except DatabaseError (List Int)

/-- A conversation with a server that comes to an `α`. -/
inductive Dialogue (α : Type) where
  | done (result : α)
  /-- Execute a statement and go on with the reply. -/
  | execute (q : Statement) (next : Reply → Dialogue α)
  /-- End the link and go on. -/
  | hangUp (next : Except DatabaseError Unit → Dialogue α)

/-- The link of a gateway: open, closed after use, or never made. -/
inductive Link where
  | live
  | closed
  | absent
deriving DecidableEq, Repr

/-- The greatest count that a column holds, `2^31 - 1`. -/
def maxColumnCount : Nat := 2147483647

/-- The counts of a summary with their columns, in the order in which they are checked. -/
def SpecSummary.counts (s : SpecSummary) : List (CountColumn × Nat) :=
  [(.testCount, s.testCount), (.passes, s.passes), (.failed, s.failed), (.skipped, s.skipped),
    (.pending, s.pending)]

/-- The error for the first count that is too great for its column. -/
def SpecSummary.rangeError? (s : SpecSummary) : Option StoreError :=
  (s.counts.find? fun c => maxColumnCount < c.2).map fun c => .outOfRange c.1 c.2

namespace Gateway

/-- The error of a database as an error of the store. -/
def failed {α : Type} (cause : DatabaseError) : Except StoreError α := .error (.database cause)

/-- Makes a row unless its key is taken, and finds the row that has it then. -/
def upsert {table : Table} (insert select : Statement) :
    Dialogue (Except StoreError (RowId table)) :=
  .execute insert fun
    | .error cause => .done (failed cause)
    | .ok (id :: _) => .done (.ok ⟨id⟩)
    | .ok [] => .execute select fun
      | .error cause => .done (failed cause)
      | .ok (id :: _) => .done (.ok ⟨id⟩)
      | .ok [] => .done (.error (.conflictRowMissing table))

/-- Makes a row, which is always new. -/
def insert {table : Table} (q : Statement) : Dialogue (Except StoreError (RowId table)) :=
  .execute q fun
    | .error cause => .done (failed cause)
    | .ok (id :: _) => .done (.ok ⟨id⟩)
    | .ok [] => .done (failed .noRow)

/-- Changes rows; it does not matter how many. -/
def update (q : Statement) : Dialogue (Except StoreError Unit) :=
  .execute q fun
    | .error cause => .done (failed cause)
    | .ok _ => .done (.ok ())

/-- Ends the link. -/
def close : Dialogue (Except StoreError Unit) :=
  .hangUp fun
    | .error cause => .done (failed cause)
    | .ok _ => .done (.ok ())

/-- The conversation about a request on an open link. -/
def converse : (q : Request) → Dialogue (Except StoreError q.Answer)
  | .upsertAttempt row => upsert (.insertAttempt row) (.selectAttempt row.workflowId row.attempt)
  | .upsertMatrix row => upsert (.insertMatrix row) (.selectMatrix row.matrixId row.attemptId)
  | .insertSpec name matrix => insert (.insertSpec name matrix)
  | .completeSpec spec summary => update (.completeSpec spec summary)
  | .insertTest row => insert (.insertTest row)
  | .finishMatrix matrix => update (.finishMatrix matrix)
  | .finishAttempt attempt endTime => update (.finishAttempt attempt endTime)
  | .close => close

/-- The error that a request runs into before the link is looked at. -/
def precheck : Request → Option StoreError
  | .completeSpec _ summary => summary.rangeError?
  | _ => none

/-- The conversation about a request on any link. -/
def answer (q : Request) (link : Link) : Dialogue (Except StoreError q.Answer) :=
  match precheck q, link with
  | some cause, _ => .done (.error cause)
  | none, .live => converse q
  | none, .closed => .done (.error .closed)
  | none, .absent => .done (.error .unavailable)

/-- The link after a request: an open link is closed by the request to close it, whatever the
server replies. -/
def linkAfter : Request → Link → Link
  | .close, .live => .closed
  | _, link => link

end Gateway

/-- A server with states `σ`. -/
structure Server (σ : Type) where
  /-- Whether it can be reached at all. -/
  reach : σ → Except DatabaseError Unit × σ
  /-- Whether it speaks the encrypted protocol, which it is asked first. -/
  encrypts : σ → Bool × σ
  /-- Whether it accepts a login. -/
  login : (user database password : String) → σ → Except DatabaseError Unit × σ
  /-- How it replies to a statement. -/
  execute : Statement → σ → Reply × σ
  /-- How it takes the end of the link. -/
  hangUp : σ → Except DatabaseError Unit × σ

variable {α σ : Type}

/-- Holds a conversation with a server. -/
def Dialogue.run (server : Server σ) : Dialogue α → σ → α × σ
  | .done result, s => (result, s)
  | .execute q next, s =>
    let (reply, s) := server.execute q s
    (next reply).run server s
  | .hangUp next, s =>
    let (reply, s) := server.hangUp s
    (next reply).run server s

/-- The store behind a link to a server. -/
def Gateway.store (server : Server σ) : Store (Link × σ) := fun q (link, s) =>
  let (answer, s) := (Gateway.answer q link).run server s
  (answer, (linkAfter q link, s))

/-- The store behind a link that was never made; no server is involved. -/
def Gateway.unavailable : Store σ := fun q s =>
  match Gateway.precheck q with
  | some cause => (.error cause, s)
  | none => (.error .unavailable, s)

/-- Reaches a server and logs in. An unencrypted link is used only if none is required. -/
def Gateway.connect (server : Server σ) (settings : DatabaseSettings) (s : σ) :
    Except StoreError Unit × σ :=
  match server.reach s with
  | (.error cause, s) => (failed cause, s)
  | (.ok _, s) =>
    let (encrypted, s) := server.encrypts s
    if settings.requireTls && !encrypted then (failed .notEncrypted, s)
    else
      let (result, s) := server.login settings.user settings.database settings.password s
      (result.mapError .database, s)

/-- Executes the definitions of a schema up to the first that fails. -/
def Gateway.defineAll (server : Server σ) : List String → σ → Except StoreError Unit × σ
  | [], s => (.ok (), s)
  | text :: rest, s =>
    match server.execute (.define text) s with
    | (.error cause, s) => (failed cause, s)
    | (.ok _, s) => defineAll server rest s

end RunJournal
