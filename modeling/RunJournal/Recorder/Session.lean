import RunJournal.Database.Gateway
import RunJournal.Recorder.Replay
import RunJournal.Store.Faulty
import RunJournal.Store.Tables

/-!
# Several recorders at once

The shards of a run are recorded by recorders of their own which share one store. A session has the
tables of that store and its recorders by name, each with its identity, its state and a plan of
failures in front of the store; a recorder may also have no store at all. At every step one recorder
takes one event or replays a stream, so any interleaving of what recorders do is a sequence of
steps.
-/

namespace RunJournal

/-- One recorder of a session. -/
structure Member where
  identity : Identity
  state : RunState
  /-- Whether the store of the session is behind it; otherwise none is. -/
  isConnected : Bool
  plan : FailurePlan
  calls : CallCounts

/-- A recorder before its first event. -/
def Member.new (identity : Identity) (isConnected : Bool) (plan : FailurePlan) : Member :=
  ⟨identity, .initial, isConnected, plan, .none⟩

/-- The store of a recorder. -/
def Member.store (m : Member) : Store (CallCounts × Tables) :=
  Store.withFailures m.plan (if m.isConnected then Tables.store else Gateway.unavailable)

/-- Recorders over one store. -/
structure Session where
  tables : Tables
  /-- The recorders by name. -/
  members : List (String × Member)
  /-- All uploads submitted so far, in order. -/
  uploads : List Upload

namespace Session

/-- A session without recorders, on an empty store. -/
def empty : Session := ⟨.empty, [], []⟩

/-- The recorder of a name. -/
def member? (s : Session) (name : String) : Option Member := s.members.lookup name

/-- Sets the recorder of a name. -/
def setMember (name : String) (m : Member) : List (String × Member) → List (String × Member)
  | [] => [(name, m)]
  | (n, old) :: rest => if n = name then (n, m) :: rest else (n, old) :: setMember name m rest

/-- A new recorder joins under a name; it takes the place of another of that name. -/
def join (name : String) (m : Member) (s : Session) : Session :=
  { s with members := setMember name m s.members }

/-- The session after its recorder `name`, which was `m`, has come to a state and submitted
uploads. -/
def advance (name : String) (m : Member) (state : RunState) (store : CallCounts × Tables)
    (uploads : List Upload) (s : Session) : Session :=
  { tables := store.2
    members := setMember name { m with state, calls := store.1 } s.members
    uploads := s.uploads ++ uploads }

/-- A recorder takes an event. -/
def record (now : Timestamp) (name : String) (m : Member) (e : Event) (s : Session) :
    HookReport (CallCounts × Tables) × Session :=
  let report := recordEvent m.store m.identity now e m.state (m.calls, s.tables)
  (report, s.advance name m report.state report.store report.uploads)

/-- A recorder replays a stream. -/
def replay (now : Timestamp) (name : String) (m : Member) (stream : List UInt8) (s : Session) :
    (Except Text.Utf8Fault ReplaySummary × Replay (CallCounts × Tables)) × Session :=
  let (result, p) := RunJournal.replay m.store m.identity now stream m.state (m.calls, s.tables)
  ((result, p), s.advance name m p.state p.store p.uploads)

/-- The store is closed without any recorder. -/
def closeStore (s : Session) : Except StoreError Unit × Session :=
  let (result, tables) := Tables.store .close s.tables
  (result, { s with tables })

end Session

end RunJournal
