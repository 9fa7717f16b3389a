import RunJournal.Artifact.Deadline
import RunJournal.Artifact.Queue
import RunJournal.Database.Gateway
import RunJournal.Recorder.Replay
import RunJournal.Store.Printer

/-!
# Recordings

A recording replays one stream of events into a database and uploads artifacts; a **dry run** does
the same to a store and a bucket in memory and reports what would have been written.

Whatever is wrong with the environment or the stream's file is found before the database is
reached. After that only the stream itself can end a recording: without a database every event
fails and is noted, and the replay goes on.
-/

namespace RunJournal

/-- Why a stream cannot be read to its end. -/
inductive StreamFault where
  | file (cause : FileFault)
  | text (cause : Text.Utf8Fault)
deriving DecidableEq, Repr

/-- The wording of a fault of a stream. -/
def StreamFault.message : StreamFault → String
  | .file cause => cause.message
  | .text cause => cause.message

/-- Why a recording ends without a result. -/
inductive RecordingError where
  /-- The environment is wrong. -/
  | environment (cause : ConfigError)
  /-- The file of the stream cannot be opened. -/
  | events (path : String) (cause : FileFault)
  /-- The stream cannot be read. -/
  | stream (cause : StreamFault)
  /-- The database cannot be reached. -/
  | connect (cause : StoreError)
  /-- The schema cannot be defined. -/
  | schema (cause : StoreError)
  /-- The link to the database cannot be ended. -/
  | close (cause : StoreError)
  /-- The clock does not reach the deadline for uploads. -/
  | deadline
deriving DecidableEq, Repr

/-- What is wrong, and below it why. -/
def RecordingError.chain : RecordingError → List String
  | .environment cause => [cause.message]
  | .events path cause => ["failed to open event stream: " ++ path, cause.message]
  | .stream cause => ["failed to read hook events", cause.message]
  | .connect cause => ["failed to connect to run database", cause.message]
  | .schema cause => ["failed to apply schema", cause.message]
  | .close cause => ["failed to close run database connection", cause.message]
  | .deadline => ["overflow when adding duration to instant"]

/-- Where a stream comes from. -/
inductive EventSource where
  | file (path : String)
  | stream (bytes : List UInt8)
deriving DecidableEq, Repr

/-- Opens the source of a stream. A directory can be opened, and only then not be read. -/
def EventSource.openOn (disk : Disk) : EventSource → Except RecordingError Entry
  | .file path => (disk path).mapError (.events path)
  | .stream bytes => .ok (.file bytes)

/-- What a replay came to. -/
structure Replayed (σ : Type) where
  result : Except RecordingError ReplaySummary
  state : RunState
  store : σ
  uploads : List Upload
  notices : List Notice

variable {σ : Type}

/-- Replays what was opened with a new recorder. -/
def replayEntry (store : Store σ) (identity : Identity) (now : Timestamp) (entry : Entry) (s : σ) :
    Replayed σ :=
  match entry.contents with
  | .error cause => ⟨.error (.stream (.file cause)), .initial, s, [], []⟩
  | .ok stream =>
    let (result, p) := replay store identity now stream .initial s
    ⟨result.mapError fun fault => .stream (.text fault), p.state, p.store, p.uploads, p.notices⟩

/-- Submits uploads to a new queue and lets all of them finish. -/
def deliver (disk : Disk) (uploads : List Upload) : Delivery :=
  ((uploads.foldl (fun q u => q.submit u) Queue.empty).drainAll disk .none).2

/-- Waits for uploads, `grace` seconds at most. Nothing is waited for where nothing was
submitted. -/
def deliverWithin (disk : Disk) (clock : Instant) (grace : Nat) (uploads : List Upload) :
    Except RecordingError Delivery :=
  if uploads.isEmpty then .ok .none
  else match clock.after? grace with
    | none => .error .deadline
    | some _ => .ok (deliver disk uploads)

/-- What surrounds a recording: files, the time, and the monotonic clock. -/
structure Surroundings where
  disk : Disk
  now : Timestamp
  clock : Instant

/-! ## Dry runs -/

/-- What a dry run would have written. -/
structure DryRunReport where
  identity : Identity
  summary : ReplaySummary
  state : RunState
  tables : Tables
  /-- The keys of the artifacts, in increasing order. -/
  artifacts : List String

/-- A report as JSON. -/
def DryRunReport.toJson (time : Timestamp → String) (r : DryRunReport) : Json :=
  .object [("identity", r.identity.toJson), ("summary", r.summary.toJson),
    ("state", r.state.toJson), ("tables", (r.tables.toJson time).canonical),
    ("artifacts", .array (r.artifacts.map .text))]

/-- What a recording comes to, with what it has to say about itself. -/
structure Concluded (α : Type) where
  result : Except RecordingError α
  notices : List Notice
  failures : List UploadFailure

/-- A recording that ends before it has done anything. -/
def Concluded.early {α : Type} (cause : RecordingError) : Concluded α := ⟨.error cause, [], []⟩

/-- Replays a stream into memory. Only the identity is needed of the environment. -/
def dryRun (around : Surroundings) (env : Environment) (config : Config) (source : EventSource) :
    Concluded DryRunReport :=
  match Identity.ofEnvironment env with
  | .error cause => .early (.environment cause)
  | .ok identity =>
    match source.openOn around.disk with
    | .error cause => .early cause
    | .ok entry =>
      let p := replayEntry Tables.store identity around.now entry Tables.empty
      match p.result with
      | .error cause => ⟨.error cause, p.notices, []⟩
      | .ok summary =>
        match deliverWithin around.disk around.clock config.artifacts.uploadGraceSecs p.uploads with
        | .error cause => ⟨.error cause, p.notices, []⟩
        | .ok delivery =>
          ⟨.ok ⟨identity, summary, p.state, p.store, delivery.bucket.keys⟩, p.notices,
            delivery.failures⟩

/-! ## Recordings in the database -/

/-- The link that a connection leads to, and the notice where it fails. -/
def linkOf : Except StoreError Unit → Link × List Notice
  | .ok _ => (.live, [])
  | .error cause => (.absent, [.unreachable cause])

/-- Records a stream in the database. -/
def record (around : Surroundings) (server : Server σ) (env : Environment) (config : Config)
    (source : EventSource) (s : σ) : Concluded ReplaySummary × σ :=
  match Settings.resolve env config with
  | .error cause => (.early (.environment cause), s)
  | .ok settings =>
    match source.openOn around.disk with
    | .error cause => (.early cause, s)
    | .ok entry =>
      let (connection, s) := Gateway.connect server settings.database s
      let (link, notices) := linkOf connection
      let p := replayEntry (Gateway.store server) settings.identity around.now entry (link, s)
      let notices := notices ++ p.notices
      match p.result with
      | .error cause => (⟨.error cause, notices, []⟩, p.store.2)
      | .ok summary =>
        match deliverWithin around.disk around.clock config.artifacts.uploadGraceSecs p.uploads with
        | .error cause => (⟨.error cause, notices, []⟩, p.store.2)
        | .ok delivery => (⟨.ok summary, notices, delivery.failures⟩, p.store.2)

/-- Makes the tables of the database. -/
def migrate (server : Server σ) (env : Environment) (config : Config) (s : σ) :
    Except RecordingError Unit × σ :=
  match DatabaseSettings.resolve env config.database with
  | .error cause => (.error (.environment cause), s)
  | .ok settings =>
    match Gateway.connect server settings s with
    | (.error cause, s) => (.error (.connect cause), s)
    | (.ok _, s) =>
      match Gateway.defineAll server schemaDefinitions s with
      | (.error cause, s) => (.error (.schema cause), s)
      | (.ok _, s) =>
        let (result, (_, s)) := Gateway.store server .close (.live, s)
        (result.mapError .close, s)

end RunJournal
