import RunJournal.Event.Basic
import RunJournal.Store.Request

/-!
# Notices

What a recording has to say about itself besides what it stores: warnings about the stream of
events, and errors of its bookkeeping. A notice is a cause; its level, message and fields are
derived from it.
-/

namespace RunJournal

/-- Where in the course of a run a stream of events is. -/
inductive Phase where
  | awaitingRun
  | betweenSpecs
  | inSpec
  | finished
deriving DecidableEq, Repr

/-- The name of a phase. -/
def Phase.name : Phase → String
  | .awaitingRun => "AwaitingRun"
  | .betweenSpecs => "BetweenSpecs"
  | .inSpec => "InSpec"
  | .finished => "Finished"

/-- Why the bookkeeping for an event fails. -/
inductive HookError where
  /-- The attempt has no row. -/
  | missingAttempt
  /-- The shard has no row. -/
  | missingMatrix
  /-- No spec is running where one should have ended. -/
  | missingSpec (spec : String)
  /-- The store fails. -/
  | store (cause : StoreError)
deriving DecidableEq, Repr

/-- The wording of a bookkeeping error. -/
def HookError.message : HookError → String
  | .missingAttempt => "no attempt row was recorded for this run"
  | .missingMatrix => "no matrix row was recorded for this shard"
  | .missingSpec spec => "no spec row was recorded for " ++ spec
  | .store cause => cause.message

/-- What a recording has to say about itself. -/
inductive Notice where
  /-- The bookkeeping for an event failed. -/
  | hookFailed (kind : EventKind) (cause : HookError)
  /-- The spec that ended is not the one that was started. -/
  | specMismatch (started ended : String)
  /-- A line holds no event. -/
  | malformedLine (line : Nat)
  /-- An event comes after the end of the run. -/
  | lateEvent (line : Nat) (kind : EventKind)
  /-- An event comes at the wrong moment. -/
  | outOfOrder (line : Nat) (kind : EventKind) (phase : Phase)
  /-- The stream ends before the run does. -/
  | unfinished (phase : Phase)
  /-- The database could not be reached. -/
  | unreachable (cause : StoreError)
deriving DecidableEq, Repr

/-- How much a notice matters. -/
inductive Level where
  | warn
  | error
deriving DecidableEq, Repr

/-- The name of a level. -/
def Level.name : Level → String
  | .warn => "WARN"
  | .error => "ERROR"

/-- The level of a notice. -/
def Notice.level : Notice → Level
  | .hookFailed _ _ => .error
  | .unreachable _ => .error
  | _ => .warn

/-- The message of a notice. -/
def Notice.message : Notice → String
  | .hookFailed _ _ => "run bookkeeping failed"
  | .specMismatch _ _ => "after:spec does not match the spec that was started"
  | .malformedLine _ => "skipping malformed hook event"
  | .lateEvent _ _ => "ignoring event after after:run"
  | .outOfOrder _ _ _ => "hook event out of lifecycle order"
  | .unfinished _ => "event stream ended before after:run"
  | .unreachable _ => "run database unreachable, hooks will not be recorded"

/-- The fields of a notice. -/
def Notice.fields : Notice → List (String × String)
  | .hookFailed kind cause => [("hook", kind.name), ("error", cause.message)]
  | .specMismatch started ended => [("started", started), ("finished", ended)]
  | .malformedLine line => [("line", Text.natText line)]
  | .lateEvent line kind => [("line", Text.natText line), ("event", kind.name)]
  | .outOfOrder line kind phase =>
    [("line", Text.natText line), ("event", kind.name), ("phase", phase.name)]
  | .unfinished phase => [("phase", phase.name)]
  | .unreachable cause => [("error", cause.message)]

end RunJournal
