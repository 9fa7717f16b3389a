import RunJournal.Event.Basic
import RunJournal.Json.Record

/-!
# Reading events

An event is a record whose member `event`, wherever it stands, names its kind. The text is read
as JSON as a whole before the fields of the kind are looked at, with one exception: the name of
the kind is judged on the spot, so a text with an unknown kind is of the wrong shape even when it
is broken further on. What follows the record is looked at last.

Every record may also be written as an array of its fields, the event itself with the name of its
kind in front; only an attempt has to be an object, for it keeps the members it does not know.
-/

namespace RunJournal

open Json

/-- The first number that is no count or index, `2^32`. -/
def countLimit : Nat := 4294967296

/-- Reads an attempt: an object with one member `state`, a text, and any others. -/
def Attempt.ofJson? : Json → Option Attempt
  | .object members =>
    match members.filter fun m => m.1 == "state" with
    | [(_, .text state)] =>
      some ⟨state, sortMembers (canonicalMembers (members.filter fun m => m.1 != "state"))⟩
    | _ => none
  | _ => none

/-- Reads a screenshot. -/
def Screenshot.ofJson? (v : Json) : Option Screenshot := do
  let fields ← fields? ["path", "testId", "testAttemptIndex"] v
  let path ← required fields "path" asText
  let testId ← required fields "testId" asText
  let attemptIndex ← required fields "testAttemptIndex" (asNatBelow countLimit)
  some ⟨path, testId, attemptIndex⟩

/-- Reads counts, each of which is 0 when it is not given. -/
def Stats.ofJson? (v : Json) : Option Stats := do
  let fields ← fields? ["tests", "passes", "failures", "pending", "skipped"] v
  let count (name : String) := optional fields name (asNatBelow countLimit) 0
  some ⟨← count "tests", ← count "passes", ← count "failures", ← count "pending",
    ← count "skipped"⟩

/-- Reads a test; its identifier and its attempts may be missing. -/
def TestResult.ofJson? (v : Json) : Option TestResult := do
  let fields ← fields? ["testId", "title", "state", "attempts"] v
  let testId ← optional fields "testId" asText ""
  let title ← required fields "title" (asList asText)
  let state ← required fields "state" asText
  let attempts ← optional fields "attempts" (asList Attempt.ofJson?) []
  some ⟨testId, title, state, attempts⟩

/-- Reads the results of a spec file; all but the counts may be missing. -/
def SpecResults.ofJson? (v : Json) : Option SpecResults := do
  let fields ← fields? ["stats", "tests", "screenshots", "video"] v
  let stats ← required fields "stats" Stats.ofJson?
  let tests ← optional fields "tests" (asList TestResult.ofJson?) []
  let screenshots ← optional fields "screenshots" (asList Screenshot.ofJson?) []
  let video ← optional fields "video" (orNull asText) none
  some ⟨stats, tests, screenshots, video⟩

/-- Reads the path that a spec file is known by. -/
def specOfJson? (v : Json) : Option String := do
  let fields ← fields? ["relative"] v
  required fields "relative" asText

/-- Reads the name of a browser from its record. -/
def browserOfJson? (v : Json) : Option String := do
  let fields ← fields? ["name"] v
  required fields "name" asText

/-- Reads what is known of a run at its start: the browser. -/
def runOfJson? (v : Json) : Option String := do
  let fields ← fields? ["browser"] v
  required fields "browser" browserOfJson?

/-- Reads an event of a known kind from the record of its fields. -/
def Event.ofFields? : EventKind → Json → Option Event
  | .beforeRun, v => do
    let fields ← fields? ["details"] v
    some (.beforeRun (← required fields "details" runOfJson?))
  | .beforeSpec, v => do
    let fields ← fields? ["spec"] v
    some (.beforeSpec (← required fields "spec" specOfJson?))
  | .afterSpec, v => do
    let fields ← fields? ["spec", "results"] v
    let spec ← required fields "spec" specOfJson?
    some (.afterSpec spec (← required fields "results" SpecResults.ofJson?))
  | .afterRun, v => do
    let fields ← fields? ["details"] v
    let details ← optional fields "details" (orNull fun v => some v.canonical) none
    some (.afterRun details)

/-! ## Text -/

/-- The cause of refusal of a text where something else than a scalar was expected: a broken
scalar is refused for its own fault. -/
def refusal (cs : List Char) : Fault :=
  match readValue 0 cs with
  | .ok _ => .wrongShape
  | .error fault => fault

/-- Reads the name of a kind of event. -/
def readKind (cs : List Char) : Except Fault (EventKind × List Char) :=
  match skipSpace cs with
  | [] => .error .endsEarly
  | '"' :: rest => do
    let (name, rest) ← readText rest
    match EventKind.ofName? name with
    | some kind => .ok (kind, rest)
    | none => .error .wrongShape
  | '[' :: _ => .error .wrongShape
  | '\x7b' :: _ => .error .wrongShape
  | cs => .error (refusal cs)

/-- What was gathered from the members of an event: its kind, once it is known, and the other
members, last first. -/
structure Gathered where
  kind : Option EventKind
  members : List (String × Json)

/-- Reads the member `name` of an event after its name. -/
def readEventMember (gathered : Gathered) (name : String) (cs : List Char) :
    Except Fault (Gathered × List Char) :=
  if name = "event" then
    if gathered.kind.isSome then .error .wrongShape
    else do
      let cs ← readColon cs
      let (kind, cs) ← readKind cs
      .ok ({ gathered with kind := some kind }, cs)
  else do
    let (members, cs) ← readMember (readValue (maxDepth - 1)) gathered.members name cs
    .ok ({ gathered with members }, cs)

/-- Reads the fields of an event after the bracket or brace that opens it. -/
def readEvent (cs : List Char) : Except Fault ((EventKind × Json) × List Char) :=
  match skipSpace cs with
  | [] => .error .endsEarly
  | '\x7b' :: rest => do
    let (gathered, rest) ← readMembers readEventMember (rest.length + 1) true ⟨none, []⟩ rest
    match gathered.kind with
    | none => .error .wrongShape
    | some kind => .ok ((kind, .object gathered.members.reverse), rest)
  | '[' :: rest =>
    match skipSpace rest with
    | [] => .error .endsEarly
    | ']' :: _ => .error .wrongShape
    | rest => do
      let (kind, rest) ← readKind rest
      let (items, rest) ← readItems (readValue (maxDepth - 1)) (rest.length + 1) false [] rest
      .ok ((kind, .array items), rest)
  | cs => .error (refusal cs)

/-- The event that a whole text denotes. -/
def Event.read (cs : List Char) : Except Fault Event := do
  let ((kind, fields), rest) ← readEvent cs
  match Event.ofFields? kind fields with
  | none => .error .wrongShape
  | some event => do
    readEnd rest
    .ok event

end RunJournal
