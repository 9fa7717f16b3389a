import RunJournal.Text.Quoted
import RunJournal.Text.Blank
import RunJournal.Text.Utf8
import RunJournal.Text.Line
import RunJournal.Json.Printer
import RunJournal.Json.Record
import RunJournal.Event.Printer
import RunJournal.Event.Reader
import RunJournal.Store.Printer
import RunJournal.Store.Faulty
import RunJournal.Config
import RunJournal.Settings
import RunJournal.Config.Source
import RunJournal.Disk.Tree
import RunJournal.Artifact.Key
import RunJournal.Artifact.Queue
import RunJournal.Artifact.Deadline
import RunJournal.Recorder.Replay
import RunJournal.Database.Script
import RunJournal.Recorder.Session
import RunJournal.Recording
import RunJournal.Main
import RunJournal.Proofs.Replay.Orderly
import RunJournal.Proofs.Replay.Settled
import RunJournal.Proofs.Recorder.Provenance
import RunJournal.Proofs.Replay.Lifecycle
import RunJournal.Proofs.Replay.Resilience
import RunJournal.Proofs.Text.Lines
import RunJournal.Proofs.Replay.Reframing
import RunJournal.Proofs.Replay.Composition
import RunJournal.Proofs.Replay.Broken
import RunJournal.Proofs.Replay.Transport
import RunJournal.Proofs.Recorder.History
import RunJournal.Proofs.Recorder.Endings
import RunJournal.Proofs.Store.Upserts
import RunJournal.Proofs.Session.Apart
import RunJournal.Proofs.Database.Convergence
import RunJournal.Proofs.Database.Refinement
import RunJournal.Proofs.Store.Permanence
import RunJournal.Proofs.Store.Failures
import RunJournal.Proofs.Session.Steps
import RunJournal.Proofs.Session.Keys
import RunJournal.Proofs.Session.Closed
import RunJournal.Proofs.Artifact.Delivery
import RunJournal.Proofs.Artifact.DryRun
import RunJournal.Proofs.Settings.Contact
import RunJournal.Proofs.Event.Decoding
import RunJournal.Proofs.Toml.WellFormed
import RunJournal.Proofs.Config.Merging
import RunJournal.Proofs.Settings.Numbers
import RunJournal.Proofs.Artifact.Background
import RunJournal.Proofs.Artifact.Deadline
