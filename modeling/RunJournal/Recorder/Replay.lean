import RunJournal.Event.Reader
import RunJournal.Recorder.Hooks
import RunJournal.Text.Blank
import RunJournal.Text.Line

/-!
# Replaying a stream of events

A stream holds one event a line. Its events are recorded in order, each before the next line is
looked at. A blank line is skipped; a line that holds no event is counted and noted; an event after
the end of the run is counted, noted and not recorded; and an event that the course of a run does
not allow at this moment is counted and noted, but recorded all the same.

The stream itself is broken at the first line whose bytes before its end are not UTF-8. Everything
before that line has been recorded by then.
-/

namespace RunJournal

/-- Whether the course of a run allows an event of this kind now. -/
def Phase.allows : Phase → EventKind → Bool
  | .awaitingRun, .beforeRun => true
  | .betweenSpecs, .beforeSpec => true
  | .betweenSpecs, .afterRun => true
  | .inSpec, .afterSpec => true
  | _, _ => false

/-- Where an event leaves the run, whatever was before. -/
def Phase.after : EventKind → Phase
  | .beforeRun => .betweenSpecs
  | .beforeSpec => .inSpec
  | .afterSpec => .betweenSpecs
  | .afterRun => .finished

/-- The counts of a replay. -/
structure ReplaySummary where
  /-- Events that were recorded or failed to be. -/
  events : Nat
  /-- Specs that were started. -/
  specs : Nat
  /-- Events that failed to be recorded. -/
  failedHooks : Nat
  malformedLines : Nat
  outOfOrder : Nat
  ignoredAfterRun : Nat
  /-- Whether the end of the run was reported. -/
  finished : Bool
deriving DecidableEq, Repr

/-- The counts before the first line. -/
def ReplaySummary.zero : ReplaySummary := ⟨0, 0, 0, 0, 0, 0, false⟩

/-- A summary as JSON. -/
def ReplaySummary.toJson (s : ReplaySummary) : Json :=
  .object [("events", .nat s.events), ("specs", .nat s.specs),
    ("failed_hooks", .nat s.failedHooks), ("malformed_lines", .nat s.malformedLines),
    ("out_of_order", .nat s.outOfOrder), ("ignored_after_run", .nat s.ignoredAfterRun),
    ("finished", .bool s.finished)]

/-- What a line of a stream comes to. -/
inductive LineContent where
  | blank
  | malformed
  | event (e : Event)

/-- What the characters of a line come to, without the white space around them. -/
def LineContent.read (line : List Char) : LineContent :=
  match Text.trim line with
  | [] => .blank
  | cs =>
    match Event.read cs with
    | .ok e => .event e
    | .error _ => .malformed

/-- A replay under way: how far it has come, and everything that was done. -/
structure Replay (σ : Type) where
  phase : Phase
  /-- How many lines were read. -/
  lines : Nat
  summary : ReplaySummary
  state : RunState
  store : σ
  uploads : List Upload
  notices : List Notice

variable {σ : Type}

namespace Replay

/-- A replay before its first line. -/
def start (r : RunState) (s : σ) : Replay σ := ⟨.awaitingRun, 0, .zero, r, s, [], []⟩

/-- Notes something. -/
def note (p : Replay σ) (n : Notice) : Replay σ := { p with notices := p.notices ++ [n] }

/-- Counts and notes an event that the course of a run does not allow now. -/
def checkOrder (p : Replay σ) (kind : EventKind) : Replay σ :=
  if p.phase.allows kind then p
  else
    { p.note (.outOfOrder p.lines kind p.phase) with
      summary := { p.summary with outOfOrder := p.summary.outOfOrder + 1 } }

/-- Records an event and counts it. -/
def record (store : Store σ) (identity : Identity) (now : Timestamp) (e : Event) (p : Replay σ) :
    Replay σ :=
  let report := recordEvent store identity now e p.state p.store
  { p with
    phase := Phase.after e.kind
    summary := { p.summary with
      events := p.summary.events + 1
      specs := p.summary.specs + (if e.kind = .beforeSpec then 1 else 0)
      failedHooks := p.summary.failedHooks + (if report.outcome = .failed then 1 else 0) }
    state := report.state
    store := report.store
    uploads := p.uploads ++ report.uploads
    notices := p.notices ++ report.notices }

/-- Takes what the next line comes to. -/
def take (store : Store σ) (identity : Identity) (now : Timestamp) (content : LineContent)
    (p : Replay σ) : Replay σ :=
  let p := { p with lines := p.lines + 1 }
  match content with
  | .blank => p
  | .malformed =>
    { p.note (.malformedLine p.lines) with
      summary := { p.summary with malformedLines := p.summary.malformedLines + 1 } }
  | .event e =>
    if p.phase = .finished then
      { p.note (.lateEvent p.lines e.kind) with
        summary := { p.summary with ignoredAfterRun := p.summary.ignoredAfterRun + 1 } }
    else (p.checkOrder e.kind).record store identity now e

/-- Ends a replay at the end of its stream. -/
def close (p : Replay σ) : Replay σ :=
  if p.phase = .finished then { p with summary := { p.summary with finished := true } }
  else p.note (.unfinished p.phase)

end Replay

/-- Replays lines up to the end, or up to the first that is not UTF-8. -/
def replayLines (store : Store σ) (identity : Identity) (now : Timestamp) :
    List (List UInt8) → Replay σ → Except Text.Utf8Fault Unit × Replay σ
  | [], p => (.ok (), p)
  | line :: rest, p =>
    match Text.decodeUtf8 (Text.withoutLineEnd line) with
    | .error fault => (.error fault, p)
    | .ok cs => replayLines store identity now rest (p.take store identity now (.read cs))

/-- Replays a stream: its summary or its fault, and everything that was done. -/
def replay (store : Store σ) (identity : Identity) (now : Timestamp) (stream : List UInt8)
    (r : RunState) (s : σ) : Except Text.Utf8Fault ReplaySummary × Replay σ :=
  match replayLines store identity now (Text.lines stream) (.start r s) with
  | (.error fault, p) => (.error fault, p)
  | (.ok _, p) => (.ok p.close.summary, p.close)

end RunJournal
