import RunJournal.Recorder.Hooks

/-!
# The course of a recorder

A recorder that is given events one after the other, without any stream. `Course.recordAll` is the
run of which a replay, a session or a single event is a case, and `Course.Recorded` is what is known
of one step of it when the event is recorded.
-/

namespace RunJournal

variable {σ : Type} (store : Store σ) (identity : Identity) (now : Timestamp)

/-- The identity of a recorder for samples of runs. -/
def Identity.sample : Identity :=
  ⟨42, 1, "shard-a", "Linux", "acme/builder", "ci-bot", "push", "release", "Cypress test"⟩

/-- A recorder with its store, and what it has done so far. -/
structure Course (σ : Type) where
  state : RunState
  store : σ
  /-- The uploads submitted, in order. -/
  uploads : List Upload
  /-- How many events failed to be recorded. -/
  failures : Nat

namespace Course

/-- A recorder that has done nothing so far. -/
def start (r : RunState) (s : σ) : Course σ := ⟨r, s, [], 0⟩

/-- Records one event. -/
def record (e : Event) (c : Course σ) : Course σ :=
  let report := recordEvent store identity now e c.state c.store
  { state := report.state
    store := report.store
    uploads := c.uploads ++ report.uploads
    failures := c.failures + (if report.outcome = .failed then 1 else 0) }

/-- Records events one after the other. -/
def recordAll (events : List Event) (c : Course σ) : Course σ :=
  events.foldl (fun c e => c.record store identity now e) c

theorem recordAll_append (xs ys : List Event) (c : Course σ) :
    c.recordAll store identity now (xs ++ ys) =
      (c.recordAll store identity now xs).recordAll store identity now ys :=
  List.foldl_append

/-- An event was recorded and has left the recorder and its store in the states `r` and `s`. -/
structure Recorded (c c' : Course σ) (r : RunState) (s : σ) : Prop where
  state : c'.state = r
  store : c'.store = s
  failures : c'.failures = c.failures

theorem recorded_of_report {e : Event} {c : Course σ} {r : RunState} {s : σ}
    {uploads : List Upload} {notices : List Notice}
    (h : recordEvent store identity now e c.state c.store = ⟨.recorded, r, s, uploads, notices⟩) :
    Recorded c (c.record store identity now e) r s := by
  rw [record, h]
  exact ⟨rfl, rfl, rfl⟩

/-- The start of a spec without a shard only forgets the spec before it. -/
theorem record_beforeSpec_of_matrixId_eq_none {c : Course σ} (h : c.state.matrixId = none)
    (name : String) :
    (c.record store identity now (.beforeSpec name)).state = { c.state with spec := none } ∧
      (c.record store identity now (.beforeSpec name)).store = c.store := by
  simp only [record, recordEvent, beforeSpec, h]
  exact ⟨trivial, trivial⟩

/-- The end of a spec changes nothing when no spec is remembered. -/
theorem record_afterSpec_of_spec_eq_none {c : Course σ} (h : c.state.spec = none) (name : String)
    (results : SpecResults) :
    (c.record store identity now (.afterSpec name results)).state = c.state ∧
      (c.record store identity now (.afterSpec name results)).store = c.store := by
  simp only [record, recordEvent, afterSpec, h]
  exact ⟨trivial, trivial⟩

end Course

end RunJournal
