import RunJournal.Store.Request

/-!
# Stores that fail on purpose

A plan of failures stands in front of a store. It sees every request with the number of requests
of its kind so far, and may answer with an error of its own; the store behind it then never sees
the request. What a recorder does when its store fails can be studied with any plan.
-/

namespace RunJournal

/-- Which error, if any, the plan answers to the `call`-th request of a kind, counted from 1. -/
abbrev FailurePlan := (kind : RequestKind) → (call : Nat) → Option StoreError

/-- One entry of a plan: an error for one request of a kind, or for all of them. -/
structure PlannedFailure where
  kind : RequestKind
  /-- The number of the request that fails; all of them when there is none. -/
  call : Option Nat
  error : StoreError
deriving DecidableEq, Repr

/-- Whether an entry is for the `call`-th request of a kind. -/
def PlannedFailure.applies (f : PlannedFailure) (kind : RequestKind) (call : Nat) : Bool :=
  f.kind == kind && (f.call.isNone || f.call == some call)

/-- The plan of a list of entries, of which the first that applies counts. -/
def FailurePlan.ofList (entries : List PlannedFailure) : FailurePlan := fun kind call =>
  (entries.find? fun f => f.applies kind call).map PlannedFailure.error

/-- How many requests of each kind were made. -/
abbrev CallCounts := RequestKind → Nat

/-- No request so far. -/
def CallCounts.none : CallCounts := fun _ => 0

/-- One more request of a kind. -/
def CallCounts.count (counts : CallCounts) (kind : RequestKind) : CallCounts := fun k =>
  if k = kind then counts k + 1 else counts k

/-- The store with a plan of failures in front of it. -/
def Store.withFailures {σ : Type} (plan : FailurePlan) (store : Store σ) :
    Store (CallCounts × σ) := fun q (counts, s) =>
  let counts := counts.count q.kind
  match plan q.kind (counts q.kind) with
  | some error => (.error error, (counts, s))
  | none =>
    let (answer, s) := store q s
    (answer, (counts, s))

end RunJournal
