import RunJournal.Database.Gateway
import RunJournal.Proofs.Replay.Dispatch
import RunJournal.Store.Tables

/-!
# Replays with stores that fail

A store shows in the identifiers that a recorder holds, in what it uploads and in how many events
fail to be recorded, and nowhere else. The `Outline` of a replay is all the rest: where the run is,
the other counts, the browser and whether the end of the run was reported. `Outline.take` says what
a line does to it, and no store occurs in it.

- `replay_storeIndependent` compares two replays of one stream with any two stores, each of which
  may answer any request with any success or error: both break at the same place, or both return the
  same counts apart from the failures.
- It says also what is left of a replay with a store that fails every request. The invariant is
  `Barren`: every event failed, nothing was uploaded, and no identifier is held.
-/

namespace RunJournal

variable {σ : Type} (store : Store σ) (identity : Identity) (now : Timestamp)

/-! ## What shows without a store -/

/-- The counts of a replay, without how many events failed to be recorded. -/
def ReplaySummary.withoutFailures (s : ReplaySummary) : ReplaySummary := { s with failedHooks := 0 }

/-- The browser that an event names. -/
def Event.browser? : Event → Option String
  | .beforeRun browser => some browser
  | _ => none

/-- What shows of a replay without its store. -/
structure Outline where
  phase : Phase
  lines : Nat
  counts : ReplaySummary
  browser : Option String
  finished : Bool

namespace Outline

/-- A line before the end of the run that holds an event. -/
def dispatch (e : Event) (v : Outline) : Outline :=
  { phase := Phase.after e.kind
    lines := v.lines
    counts := { v.counts with
      events := v.counts.events + 1
      specs := v.counts.specs + (if e.kind = .beforeSpec then 1 else 0)
      outOfOrder := v.counts.outOfOrder + (if v.phase.allows e.kind then 0 else 1) }
    browser := e.browser?.or v.browser
    finished := e.kind == .afterRun || v.finished }

/-- Takes what the next line comes to. -/
def take (content : LineContent) (v : Outline) : Outline :=
  let v := { v with lines := v.lines + 1 }
  match content with
  | .blank => v
  | .malformed =>
    { v with counts := { v.counts with malformedLines := v.counts.malformedLines + 1 } }
  | .event e =>
    if v.phase = .finished then
      { v with counts := { v.counts with ignoredAfterRun := v.counts.ignoredAfterRun + 1 } }
    else v.dispatch e

/-- Ends at the end of the stream. -/
def close (v : Outline) : Outline :=
  if v.phase = .finished then { v with counts := { v.counts with finished := true } } else v

end Outline

/-! ## What an event does to a recorder with any store -/

/-- Only the start of a run sets the browser and only the end of a run ends it, whatever the store
answers. -/
theorem recordEvent_browser_finished (e : Event) (r : RunState) (s : σ) :
    (recordEvent store identity now e r s).state.browser = e.browser?.or r.browser ∧
      (recordEvent store identity now e r s).state.finished =
        (e.kind == .afterRun || r.finished) := by
  -- the cases are the ways in which an event can fail or be recorded; each leaves both the same
  cases e with
  | beforeRun browser =>
    simp only [recordEvent, beforeRun]
    split
    · exact ⟨rfl, rfl⟩
    · split
      · exact ⟨rfl, rfl⟩
      · exact ⟨rfl, rfl⟩
  | beforeSpec name =>
    simp only [recordEvent, beforeSpec]
    split
    · exact ⟨rfl, rfl⟩
    · split
      · exact ⟨rfl, rfl⟩
      · exact ⟨rfl, rfl⟩
  | afterSpec name results =>
    simp only [recordEvent, afterSpec]
    split
    · exact ⟨rfl, rfl⟩
    · split
      · exact ⟨rfl, rfl⟩
      · exact ⟨rfl, rfl⟩
  | afterRun details => exact ⟨rfl, rfl⟩

/-! ## The outline of a replay -/

namespace Replay

/-- What shows of a replay without its store. -/
def outline (p : Replay σ) : Outline :=
  ⟨p.phase, p.lines, p.summary.withoutFailures, p.state.browser, p.state.finished⟩

theorem outline_record (e : Event) (p : Replay σ) :
    ((p.checkOrder e.kind).record store identity now e).outline = p.outline.dispatch e := by
  -- the outcome of the event shows in `failedHooks` only, which the outline leaves out
  obtain ⟨hbrowser, hfinished⟩ :=
    recordEvent_browser_finished store identity now e p.state p.store
  rw [checkOrder]
  split
  · rename_i hallows
    simp only [record, outline, Outline.dispatch, ReplaySummary.withoutFailures, hbrowser,
      hfinished, hallows, if_true, Nat.add_zero]
  · rename_i hallows
    simp only [record, note, outline, Outline.dispatch, ReplaySummary.withoutFailures, hbrowser,
      hfinished, hallows, Bool.false_eq_true, if_false]

/-- A line does to the outline what it does without a store. -/
theorem outline_take (content : LineContent) (p : Replay σ) :
    (p.take store identity now content).outline = p.outline.take content := by
  cases content with
  | blank => rfl
  | malformed => rfl
  | event e =>
    by_cases hphase : p.phase = .finished
    · have houtline : p.outline.phase = .finished := hphase
      simp only [take, Outline.take, if_pos hphase, if_pos houtline]
      rfl
    · have houtline : p.outline.phase ≠ .finished := hphase
      simp only [take, Outline.take, if_neg hphase, if_neg houtline]
      exact outline_record store identity now e { p with lines := p.lines + 1 }

theorem outline_takeAll (contents : List LineContent) (p : Replay σ) :
    (p.takeAll store identity now contents).outline =
      contents.foldl (fun v content => v.take content) p.outline := by
  induction contents generalizing p with
  | nil => rfl
  | cons content rest ih =>
    rw [List.foldl_cons, ← outline_take store identity now content p]
    exact ih (p.take store identity now content)

theorem outline_close (p : Replay σ) : p.close.outline = p.outline.close := by
  by_cases hphase : p.phase = .finished
  · have houtline : p.outline.phase = .finished := hphase
    rw [close, Outline.close, if_pos hphase, if_pos houtline]
    rfl
  · have houtline : p.outline.phase ≠ .finished := hphase
    rw [close, Outline.close, if_neg hphase, if_neg houtline]
    rfl

end Replay

/-- The outline of a replay of a stream by a new recorder. -/
def outlineOf (stream : List UInt8) : Outline :=
  let v := (readable (Text.lines stream)).foldl (fun v content => v.take content)
    ⟨.awaitingRun, 0, .zero, none, false⟩
  match firstFault (Text.lines stream) with
  | .error _ => v
  | .ok _ => v.close

/-- A replay shows what its stream says, whatever the store answers. -/
theorem replay_outline (stream : List UInt8) (s : σ) :
    (replay store identity now stream .initial s).2.outline = outlineOf stream := by
  have hlines := Replay.outline_takeAll store identity now (readable (Text.lines stream))
    (.start .initial s)
  rw [replay_eq, outlineOf]
  cases firstFault (Text.lines stream) with
  | error fault => exact hlines
  | ok _ => exact (Replay.outline_close _).trans (congrArg Outline.close hlines)

/-- A replay breaks where its stream does, and else returns its counts. -/
theorem replay_result (stream : List UInt8) (r : RunState) (s : σ) :
    (replay store identity now stream r s).1 =
      (firstFault (Text.lines stream)).map fun _ =>
        (replay store identity now stream r s).2.summary := by
  rw [replay_eq]
  cases firstFault (Text.lines stream) with
  | error fault => rfl
  | ok _ => rfl

/-- The counts that a replay returns are those that it ends with. -/
theorem summary_of_replay_eq_ok {stream : List UInt8} {r : RunState} {s : σ}
    {summary : ReplaySummary} (h : (replay store identity now stream r s).1 = .ok summary) :
    (replay store identity now stream r s).2.summary = summary := by
  rw [replay_result] at h
  cases hfault : firstFault (Text.lines stream) with
  | error fault =>
    rw [hfault] at h
    cases h
  | ok _ =>
    rw [hfault] at h
    exact Except.ok.inj h

/-! ## Stores that fail every request -/

/-- A store answers no request. -/
def Store.Fails (store : Store σ) : Prop :=
  ∀ (q : Request) (s : σ), ∃ cause s', store q s = (.error cause, s')

/-- The store behind a link that was never made fails every request. -/
theorem unavailable_fails : Store.Fails (Gateway.unavailable : Store σ) := by
  intro q s
  rw [Gateway.unavailable]
  cases Gateway.precheck q with
  | some cause => exact ⟨cause, s, rfl⟩
  | none => exact ⟨.unavailable, s, rfl⟩

/-- A recorder holds no identifier. -/
structure RunState.HoldsNothing (r : RunState) : Prop where
  attemptId : r.attemptId = none
  matrixId : r.matrixId = none
  spec : r.spec = none

/-- Where a replay stands when every request has failed. -/
structure Replay.Barren (p : Replay σ) : Prop where
  state : p.state.HoldsNothing
  uploads : p.uploads = []
  failures : p.summary.failedHooks = p.summary.events

variable {store}

/-- **Every event fails when every request does**, and the recorder still holds nothing. -/
theorem recordEvent_of_fails (h : store.Fails) (e : Event) {r : RunState} (hr : r.HoldsNothing)
    (s : σ) :
    (recordEvent store identity now e r s).outcome = .failed ∧
      (recordEvent store identity now e r s).state.HoldsNothing ∧
      (recordEvent store identity now e r s).uploads = [] := by
  cases e with
  | beforeRun browser =>
    obtain ⟨cause, s', hstore⟩ := h (.upsertAttempt (identity.attemptRow browser)) s
    simp only [recordEvent, beforeRun, hstore]
    exact ⟨trivial, ⟨hr.attemptId, hr.matrixId, hr.spec⟩, trivial⟩
  | beforeSpec name =>
    -- without a shard nothing is asked, and the event fails all the same
    simp only [recordEvent, beforeSpec, hr.matrixId]
    exact ⟨trivial, ⟨hr.attemptId, rfl, rfl⟩, trivial⟩
  | afterSpec name results =>
    simp only [recordEvent, afterSpec, hr.spec]
    exact ⟨trivial, hr, trivial⟩
  | afterRun details =>
    obtain ⟨cause, s', hclose⟩ := h .close s
    simp only [recordEvent, afterRun, performOn, hr.matrixId, hr.attemptId, perform, hclose]
    exact ⟨rfl, ⟨rfl, rfl, hr.spec⟩, trivial⟩

namespace Replay

theorem barren_start (s : σ) : (start .initial s).Barren := ⟨⟨rfl, rfl, rfl⟩, rfl, rfl⟩

theorem Barren.checkOrder {p : Replay σ} (hp : p.Barren) (kind : EventKind) :
    (p.checkOrder kind).Barren := by
  rw [Replay.checkOrder]
  split
  · exact hp
  · exact ⟨hp.state, hp.uploads, hp.failures⟩

/-- An event that is recorded fails, and is counted as such. -/
theorem Barren.record (h : store.Fails) (e : Event) {p : Replay σ} (hp : p.Barren) :
    (p.record store identity now e).Barren := by
  obtain ⟨houtcome, hstate, huploads⟩ := recordEvent_of_fails identity now h e hp.state p.store
  refine ⟨hstate, ?_, ?_⟩
  · show p.uploads ++ _ = []
    rw [hp.uploads, huploads]
    rfl
  · show p.summary.failedHooks + (if _ then 1 else 0) = p.summary.events + 1
    rw [if_pos houtcome, hp.failures]

/-- A line adds at most an event that fails. -/
theorem Barren.take (h : store.Fails) (content : LineContent) {p : Replay σ} (hp : p.Barren) :
    (p.take store identity now content).Barren := by
  have hread : Barren { p with lines := p.lines + 1 } := ⟨hp.state, hp.uploads, hp.failures⟩
  cases content with
  | blank => exact hread
  | malformed => exact ⟨hp.state, hp.uploads, hp.failures⟩
  | event e =>
    rw [Replay.take]
    split
    · exact ⟨hp.state, hp.uploads, hp.failures⟩
    · exact (hread.checkOrder e.kind).record identity now h e

theorem Barren.takeAll (h : store.Fails) (contents : List LineContent) {p : Replay σ}
    (hp : p.Barren) : (p.takeAll store identity now contents).Barren := by
  induction contents generalizing p with
  | nil => exact hp
  | cons content rest ih => exact ih (hp.take identity now h content)

theorem Barren.close {p : Replay σ} (hp : p.Barren) : p.close.Barren := by
  rw [Replay.close]
  split
  · exact ⟨hp.state, hp.uploads, hp.failures⟩
  · exact ⟨hp.state, hp.uploads, hp.failures⟩

end Replay

/-- Nothing comes of a stream when every request fails. -/
theorem replay_barren (h : store.Fails) (stream : List UInt8) (s : σ) :
    (replay store identity now stream .initial s).2.Barren := by
  have hlines := (Replay.barren_start s).takeAll identity now h (readable (Text.lines stream))
  rw [replay_eq]
  cases firstFault (Text.lines stream) with
  | error fault => exact hlines
  | ok _ => exact hlines.close

/-- **A broken store never changes how a stream is processed.** With any two stores a replay by a
new recorder breaks with the same fault, or returns the same counts apart from the failed events;
and it leaves the same browser and the same end of the run. With a store that fails every request,
every event fails, nothing is uploaded, and no identifier is held. -/
theorem replay_storeIndependent {σ₁ σ₂ : Type} (store₁ : Store σ₁) (store₂ : Store σ₂)
    (identity : Identity) (now₁ now₂ : Timestamp) (stream : List UInt8) (s₁ : σ₁) (s₂ : σ₂) :
    let run₁ := replay store₁ identity now₁ stream .initial s₁
    let run₂ := replay store₂ identity now₂ stream .initial s₂
    ((∃ fault, run₁.1 = .error fault ∧ run₂.1 = .error fault) ∨
      ∃ summary₁ summary₂, run₁.1 = .ok summary₁ ∧ run₂.1 = .ok summary₂ ∧
        summary₁.withoutFailures = summary₂.withoutFailures) ∧
    run₁.2.state.browser = run₂.2.state.browser ∧
    run₁.2.state.finished = run₂.2.state.finished ∧
    (store₁.Fails →
      (∀ summary, run₁.1 = .ok summary → summary.failedHooks = summary.events) ∧
      run₁.2.uploads = [] ∧ run₁.2.state.attemptId = none ∧ run₁.2.state.matrixId = none ∧
      run₁.2.state.spec = none) := by
  intro run₁ run₂
  have houtline : run₁.2.outline = run₂.2.outline :=
    (replay_outline store₁ identity now₁ stream s₁).trans
      (replay_outline store₂ identity now₂ stream s₂).symm
  -- which of the two endings it is depends on the stream alone
  have hresult₁ := replay_result store₁ identity now₁ stream .initial s₁
  have hresult₂ := replay_result store₂ identity now₂ stream .initial s₂
  refine ⟨?_, congrArg Outline.browser houtline, congrArg Outline.finished houtline, ?_⟩
  · cases hfault : firstFault (Text.lines stream) with
    | error fault =>
      rw [hfault] at hresult₁ hresult₂
      exact Or.inl ⟨fault, hresult₁, hresult₂⟩
    | ok _ =>
      rw [hfault] at hresult₁ hresult₂
      exact Or.inr ⟨_, _, hresult₁, hresult₂, congrArg Outline.counts houtline⟩
  · intro hfails
    obtain ⟨hstate, huploads, hfailures⟩ := replay_barren identity now₁ hfails stream s₁
    refine ⟨fun summary hok => ?_, huploads, hstate.attemptId, hstate.matrixId, hstate.spec⟩
    have hsummary : run₁.2.summary = summary := summary_of_replay_eq_ok store₁ identity now₁ hok
    rw [← hsummary]
    exact hfailures

/-- A stream with a spec whose only test failed, and its video. -/
def failedSpec : List UInt8 :=
  ("[\"before:run\",[[\"chrome\"]]]\n[\"before:spec\",[\"a.ts\"]]\n" ++
    "[\"after:spec\",[\"a.ts\"],[[1,0,1],[[\"r1\",[\"A\"],\"failed\"," ++
    "[\x7b\"state\":\"failed\"\x7d]]],[],\"a.mp4\"]]\n").toUTF8.data.toList

/-- The same stream with a store that was never reached and with tables. -/
theorem replay_storeIndependent_failedSpec :
    Store.Fails (Gateway.unavailable : Store Unit) ∧
      (replay Gateway.unavailable .sample ⟨0, 0⟩ failedSpec .initial ()).1.toOption =
        some ⟨3, 1, 3, 0, 0, 0, false⟩ ∧
      (replay Gateway.unavailable .sample ⟨0, 0⟩ failedSpec .initial ()).2.uploads = [] ∧
      (replay Tables.store .sample ⟨0, 0⟩ failedSpec .initial .empty).2.uploads =
        [⟨.video, "a.mp4", "3"⟩] ∧
      (replay Gateway.unavailable .sample ⟨0, 0⟩ failedSpec .initial ()).2.state.browser =
        (replay Tables.store .sample ⟨0, 0⟩ failedSpec .initial .empty).2.state.browser := by
  obtain ⟨-, hbrowser, -, hfails⟩ := replay_storeIndependent (Gateway.unavailable : Store Unit)
    Tables.store .sample ⟨0, 0⟩ ⟨0, 0⟩ failedSpec () .empty
  obtain ⟨-, huploads, -, -, -⟩ := hfails unavailable_fails
  refine ⟨unavailable_fails, ?_, huploads, ?_, hbrowser⟩
  · decide +kernel
  · decide +kernel

end RunJournal
