import RunJournal.Proofs.Recorder.Effect
import RunJournal.Proofs.Replay.Dispatch

/-!
# Specs that are settled

A spec is settled once its row has its summary, and what is settled should stay as it is: neither
another summary nor further tests (`Tables.Keeps`). `PopulatesOnce` says this of all lines of a
stream, compared with all lines after them.

It does not hold of every stream. A recorder goes on remembering a spec that has ended, until the
next one begins, so a second end without a start in between is written to the row of the first one:
its summary is replaced, and its tests are added to those that are there.
`not_populatesOnce_repeatedEnd` is such a stream, and `populatesOnce_iff` says exactly which streams
there are: those in which the end of a spec is reported again with other counts or with tests.

`SpecStage` is how far the specs of a run have come, read off the events alone. `Standing` ties it
to a recorder and its tables; the proof carries it from event to event.
-/

namespace RunJournal

/-! ## What is settled -/

/-- The tests of a spec. -/
def Tables.testsOf (spec : SpecId) (t : Tables) : List TestRow :=
  t.tests.filter fun row => row.values.specId == spec

/-- Every spec that has its summary in `t` is in `t'` as it was, with the same tests. -/
def Tables.Keeps (t t' : Tables) : Prop :=
  ∀ row ∈ t.specs, row.summary ≠ none → row ∈ t'.specs ∧ t'.testsOf row.id = t.testsOf row.id

variable (identity : Identity) (now : Timestamp) (stream : List UInt8)

/-- The tables after the first `n` lines of a stream. -/
def tablesAtLine (n : Nat) : Tables :=
  (replayLines Tables.store identity now ((Text.lines stream).take n)
    (.start .initial .empty)).2.store

/-- Whatever is settled after some lines stays as it is with all lines that follow. -/
def PopulatesOnce : Prop :=
  ∀ m n, m ≤ n →
    (tablesAtLine identity now stream m).Keeps (tablesAtLine identity now stream n)

/-! ## How far specs have come -/

/-- How far the specs of a run have come. -/
inductive SpecStage where
  /-- No run has started, so no spec can begin. -/
  | unstarted
  /-- No spec has begun since the run started. -/
  | idle
  /-- The last spec has begun and not ended. -/
  | running
  /-- The last spec has ended, last of all with these results. -/
  | ended (results : SpecResults)

/-- What an event makes of a stage. -/
def SpecStage.next : SpecStage → Event → SpecStage
  | .unstarted, .beforeRun _ => .idle
  | .unstarted, _ => .unstarted
  | _, .beforeSpec _ => .running
  | .running, .afterSpec _ results => .ended results
  | .ended _, .afterSpec _ results => .ended results
  | stage, _ => stage

/-- The stage that events lead to. -/
def specStage (events : List Event) : SpecStage := events.foldl SpecStage.next .unstarted

/-! ## Tables that keep what is settled -/

namespace Tables

theorem Keeps.refl (t : Tables) : t.Keeps t := fun _ hrow _ => ⟨hrow, rfl⟩

theorem Keeps.trans {t₁ t₂ t₃ : Tables} (h₁ : t₁.Keeps t₂) (h₂ : t₂.Keeps t₃) : t₁.Keeps t₃ := by
  intro row hrow hsummary
  obtain ⟨hrow₂, htests₂⟩ := h₁ row hrow hsummary
  obtain ⟨hrow₃, htests₃⟩ := h₂ row hrow₂ hsummary
  exact ⟨hrow₃, htests₃.trans htests₂⟩

/-- Tables with the same specs and tests keep what is settled. -/
theorem keeps_of_eq {t t' : Tables} (hspecs : t'.specs = t.specs) (htests : t'.tests = t.tests) :
    t.Keeps t' := by
  intro row hrow _
  refine ⟨hspecs ▸ hrow, ?_⟩
  rw [testsOf, testsOf, htests]

/-- A new spec leaves every settled one alone. -/
theorem keeps_addSpec (name : String) (matrix : MatrixId) (t : Tables) :
    t.Keeps (t.addSpec name matrix) := fun _ hrow _ => ⟨List.mem_append_left _ hrow, rfl⟩

variable {t : Tables} {spec : SpecId} {summary : SpecSummary}

/-- A row stays as it is when it has the summary already or is of another spec. -/
theorem mem_specs_setSummary {row : SpecRow} (hrow : row ∈ t.specs)
    (h : row.id = spec → row.summary = some summary) :
    row ∈ (t.setSummary spec summary).specs := by
  refine List.mem_map.mpr ⟨row, hrow, ?_⟩
  split
  · rename_i hid
    rw [← h hid]
  · rfl

/-- The spec that was completed has the summary. -/
theorem summary_of_mem_setSummary {row : SpecRow} (hrow : row ∈ (t.setSummary spec summary).specs)
    (hid : row.id = spec) : row.summary = some summary := by
  obtain ⟨old, -, hold⟩ := List.mem_map.mp hrow
  split at hold
  · rw [← hold]
  · rename_i hne
    rw [← hold] at hid
    exact absurd hid hne

/-- New tests of a spec come after those it has. -/
theorem testsOf_addTests_self (tests : List TestResult) :
    (t.addTests spec tests).testsOf spec =
      t.testsOf spec ++ testRows spec (t.lastId + 1) tests := by
  show (t.tests ++ _).filter _ = _
  rw [List.filter_append]
  congr 1
  refine List.filter_eq_self.mpr fun row hrow => ?_
  rw [specId_of_mem_testRows hrow]
  exact beq_self_eq_true _

/-- New tests of one spec are not tests of another. -/
theorem testsOf_addTests_other {other : SpecId} (hne : other ≠ spec) (tests : List TestResult) :
    (t.addTests spec tests).testsOf other = t.testsOf other := by
  have hnone : (testRows spec (t.lastId + 1) tests).filter
      (fun row => row.values.specId == other) = [] := by
    refine List.filter_eq_nil_iff.mpr fun row hrow => ?_
    rw [specId_of_mem_testRows hrow]
    simpa using hne.symm
  show (t.tests ++ _).filter _ = _
  rw [List.filter_append, hnone, List.append_nil]
  rfl

end Tables

/-- A summary tells the counts that it was made from. -/
theorem SpecSummary.ofStats_injective {a b : Stats}
    (h : SpecSummary.ofStats a = SpecSummary.ofStats b) : a = b := by
  cases a
  cases b
  simp only [SpecSummary.ofStats, SpecSummary.mk.injEq] at h
  obtain ⟨rfl, rfl, rfl, rfl, rfl, -⟩ := h
  rfl

/-! ## Recorders and stages -/

/-- The recorder remembers a spec, and its row has the summary `summary`. -/
def Course.Remembers (summary : Option SpecSummary) (c : Course Tables) : Prop :=
  ∃ current, c.state.spec = some current ∧ c.store.hasSpec current.id = true ∧
    ∀ row ∈ c.store.specs, row.id = current.id → row.summary = summary

/-- What a recorder remembers of the last spec at a stage. -/
def SpecStage.Describes (c : Course Tables) : SpecStage → Prop
  | .unstarted => c.state.spec = none
  | .idle => c.state.spec = none
  | .running => c.Remembers none
  | .ended results => c.Remembers (some (.ofStats results.stats))

/-- Where a recorder with new tables stands at a stage, before the end of the run. -/
structure Standing (stage : SpecStage) (c : Course Tables) : Prop where
  isOpen : c.store.closed = false
  hasShard : stage ≠ .unstarted →
    ∃ matrix, c.state.matrixId = some matrix ∧ c.store.hasMatrix matrix = true
  noShard : stage = .unstarted → c.state.matrixId = none
  spec : stage.Describes c
  bounded : c.store.SpecsBounded

variable {identity now stream}
variable {c : Course Tables} {stage : SpecStage}

theorem standing_start : Standing .unstarted (Course.start RunState.initial Tables.empty) where
  isOpen := rfl
  hasShard h := absurd rfl h
  noShard _ := rfl
  spec := rfl
  bounded _ hrow := absurd hrow List.not_mem_nil

/-- The start of a run changes nothing about specs. -/
theorem Standing.record_beforeRun (h : Standing stage c) (browser : String) :
    Standing (stage.next (.beforeRun browser))
      (c.record Tables.store identity now (.beforeRun browser)) := by
  obtain ⟨attempt, matrix, t', heffect, hhas, hspecs, -, hopen, hlast⟩ :=
    beforeRun_open identity browser h.isOpen (r := c.state)
  have hrec := Course.recorded_of_report Tables.store identity now
    (e := .beforeRun browser) heffect
  have hrow : ∀ current, (c.record Tables.store identity now (.beforeRun browser)).store.hasSpec
      current = c.store.hasSpec current := by
    intro current
    rw [hrec.store, Tables.hasSpec, Tables.hasSpec, hspecs]
  -- the spec that is remembered and its row are not touched, so what was known of them still holds
  have hremembers : ∀ summary, c.Remembers summary →
      (c.record Tables.store identity now (.beforeRun browser)).Remembers summary := by
    rintro summary ⟨current, hcurrent, hhas, hrows⟩
    refine ⟨current, ?_, (hrow _).trans hhas, ?_⟩
    · rw [hrec.state]
      exact hcurrent
    · rw [hrec.store, hspecs]
      exact hrows
  have hnone : c.state.spec = none →
      (c.record Tables.store identity now (.beforeRun browser)).state.spec = none := by
    intro hc
    rw [hrec.state]
    exact hc
  refine ⟨?_, fun _ => ⟨matrix, ?_, ?_⟩, fun hc => ?_, ?_, ?_⟩
  · rw [hrec.store]
    exact hopen
  · rw [hrec.state]
  · rw [hrec.store]
    exact hhas
  · cases stage <;> cases hc
  · cases stage with
    | unstarted => exact hnone h.spec
    | idle => exact hnone h.spec
    | running => exact hremembers _ h.spec
    | ended results => exact hremembers _ h.spec
  · intro row hmem
    rw [hrec.store, hspecs] at hmem
    rw [hrec.store]
    have := h.bounded row hmem
    omega

/-- A spec that begins is remembered, and its row has no summary, if a run has started. -/
theorem Standing.record_beforeSpec (h : Standing stage c) (name : String) :
    Standing (stage.next (.beforeSpec name))
      (c.record Tables.store identity now (.beforeSpec name)) := by
  by_cases hstage : stage = .unstarted
  · subst hstage
    obtain ⟨hstate, hstore⟩ := Course.record_beforeSpec_of_matrixId_eq_none Tables.store identity
      now (h.noShard rfl) name
    refine ⟨hstore ▸ h.isOpen, fun hc => absurd rfl hc, fun _ => ?_, ?_, hstore ▸ h.bounded⟩
    · rw [hstate]
      exact h.noShard rfl
    · show (c.record Tables.store identity now (.beforeSpec name)).state.spec = none
      rw [hstate]
  · obtain ⟨matrix, hmatrix, hhas⟩ := h.hasShard hstage
    have hrec := Course.record_beforeSpec_open identity now name h.isOpen hmatrix hhas
    have hnext : stage.next (.beforeSpec name) = .running := by
      cases stage with
      | unstarted => exact absurd rfl hstage
      | _ => rfl
    rw [hnext]
    refine ⟨hrec.store ▸ h.isOpen, fun _ => ⟨matrix, ?_, hrec.store ▸ hhas⟩,
      fun hc => SpecStage.noConfusion hc, ⟨⟨name, c.store.freshId⟩, ?_, ?_, ?_⟩, ?_⟩
    · rw [hrec.state]
      exact hmatrix
    · rw [hrec.state]
    · rw [hrec.store]
      exact Tables.hasSpec_addSpec _ _ _
    · -- no older row has the identifier that the spec was given
      intro row hrow hid
      rw [hrec.store] at hrow
      rcases List.mem_append.mp hrow with hold | hnew
      · exact absurd hid (h.bounded.id_ne_freshId hold)
      · rw [List.mem_singleton.mp hnew]
    · rw [hrec.store]
      exact h.bounded.addSpec name matrix

/-- A spec that ends is still remembered, and its row has the summary of its results. -/
theorem Standing.record_afterSpec_of_remembers {summary : Option SpecSummary}
    (h : Standing stage c) (hstage : stage ≠ .unstarted) (hspec : c.Remembers summary)
    (name : String) (results : SpecResults) :
    Standing (.ended results) (c.record Tables.store identity now (.afterSpec name results)) := by
  obtain ⟨current, hcurrent, hhas, -⟩ := hspec
  obtain ⟨matrix, hmatrix, hhasMatrix⟩ := h.hasShard hstage
  have hrec := Course.record_afterSpec_open identity now name results h.isOpen hcurrent hhas
  refine ⟨hrec.store ▸ h.isOpen, fun _ => ⟨matrix, ?_, hrec.store ▸ hhasMatrix⟩,
    fun hc => SpecStage.noConfusion hc, ⟨current, ?_, ?_, ?_⟩, ?_⟩
  · rw [hrec.state]
    exact hmatrix
  · rw [hrec.state]
    exact hcurrent
  · rw [hrec.store]
    exact (Tables.hasSpec_setSummary _ _ _ _).trans hhas
  · intro row hrow hid
    rw [hrec.store] at hrow
    exact Tables.summary_of_mem_setSummary hrow hid
  · rw [hrec.store]
    exact h.bounded.setSummary_addTests _ _ _

/-- A spec that ends is left alone when none is remembered. -/
theorem Standing.record_afterSpec_of_none (h : Standing stage c) (hspec : c.state.spec = none)
    (hdescribes : ∀ c' : Course Tables, c'.state.spec = none → stage.Describes c') (name : String)
    (results : SpecResults) :
    Standing stage (c.record Tables.store identity now (.afterSpec name results)) := by
  obtain ⟨hstate, hstore⟩ := Course.record_afterSpec_of_spec_eq_none Tables.store identity now hspec
    name results
  refine ⟨hstore ▸ h.isOpen, fun hc => ?_, fun hc => ?_, hdescribes _ ?_, hstore ▸ h.bounded⟩
  · rw [hstate, hstore]
    exact h.hasShard hc
  · rw [hstate]
    exact h.noShard hc
  · rw [hstate]
    exact hspec

variable (identity now) in
/-- **One event takes a recorder to the next stage**, unless it ends the run. -/
theorem Standing.record (h : Standing stage c) (e : Event) (he : e.kind ≠ .afterRun) :
    Standing (stage.next e) (c.record Tables.store identity now e) := by
  cases e with
  | beforeRun browser => exact h.record_beforeRun browser
  | beforeSpec name => exact h.record_beforeSpec name
  | afterRun details => exact absurd rfl he
  | afterSpec name results =>
    -- an end is written to a row exactly when a spec is remembered, ended before or not
    cases stage with
    | unstarted => exact h.record_afterSpec_of_none h.spec (fun _ hc => hc) name results
    | idle => exact h.record_afterSpec_of_none h.spec (fun _ hc => hc) name results
    | running =>
      exact h.record_afterSpec_of_remembers (fun hc => SpecStage.noConfusion hc) h.spec name results
    | ended first =>
      exact h.record_afterSpec_of_remembers (fun hc => SpecStage.noConfusion hc) h.spec name results

/-- Events without an end of the run take a recorder on from stage to stage. -/
theorem Standing.recordAll {events : List Event} (h : Standing stage c)
    (hgoing : ∀ e ∈ events, e.kind ≠ .afterRun) :
    Standing (events.foldl SpecStage.next stage)
      (c.recordAll Tables.store identity now events) := by
  -- both the stage and the course move on with each event, so both are general in the induction
  induction events generalizing stage c with
  | nil => exact h
  | cons e rest ih =>
    have hnext := h.record identity now e (hgoing e List.mem_cons_self)
    exact ih hnext fun x hx => hgoing x (List.mem_cons_of_mem _ hx)

/-! ## What an event keeps -/

/-- What the recorder remembers of the spec that ends: its row has no summary yet, or it has the
one that is reported again, and no tests come with it. -/
theorem Standing.remembers_afterSpec (h : Standing stage c) (hspec : c.state.spec ≠ none)
    {results : SpecResults}
    (hagain : ∀ first, stage = .ended first →
      results.stats = first.stats ∧ results.tests = []) :
    ∃ summary, c.Remembers summary ∧
      (summary = none ∨ summary = some (.ofStats results.stats) ∧ results.tests = []) := by
  cases stage with
  | unstarted => exact absurd h.spec hspec
  | idle => exact absurd h.spec hspec
  | running => exact ⟨none, h.spec, Or.inl rfl⟩
  | ended first =>
    obtain ⟨hstats, htests⟩ := hagain first rfl
    refine ⟨_, h.spec, Or.inr ⟨?_, htests⟩⟩
    rw [hstats]

variable (identity now) in
/-- The end of a spec keeps what is settled, unless it reports the end again with something new. -/
theorem Standing.keeps_afterSpec (h : Standing stage c) (name : String) (results : SpecResults)
    (hagain : ∀ first, stage = .ended first →
      results.stats = first.stats ∧ results.tests = []) :
    c.store.Keeps (c.record Tables.store identity now (.afterSpec name results)).store := by
  by_cases hspec : c.state.spec = none
  · rw [(Course.record_afterSpec_of_spec_eq_none Tables.store identity now hspec name results).2]
    exact Tables.Keeps.refl _
  · obtain ⟨summary, ⟨current, hcurrent, hhas, hrows⟩, hsummary⟩ :=
      h.remembers_afterSpec hspec hagain
    rw [(Course.record_afterSpec_open identity now name results h.isOpen hcurrent hhas).store]
    intro row hrow hne
    -- a settled row is of another spec, or it is given the summary that it has
    have hid : row.id = current.id →
        row.summary = some (.ofStats results.stats) ∧ results.tests = [] := by
      intro hid
      rcases hsummary with hnone | ⟨hsame, htests⟩
      · exact absurd ((hrows row hrow hid).trans hnone) hne
      · exact ⟨(hrows row hrow hid).trans hsame, htests⟩
    refine ⟨Tables.mem_specs_setSummary hrow fun heq => (hid heq).1, ?_⟩
    by_cases heq : row.id = current.id
    · rw [heq, (hid heq).2, Tables.testsOf_addTests_self, Tables.testRows, List.append_nil]
      rfl
    · exact Tables.testsOf_addTests_other heq _

variable (identity now) in
/-- An event keeps what is settled, unless it ends a spec again with something new. -/
theorem Standing.keeps_record (h : Standing stage c) (e : Event)
    (hagain : ∀ name results first, e = .afterSpec name results → stage = .ended first →
      results.stats = first.stats ∧ results.tests = []) :
    c.store.Keeps (c.record Tables.store identity now e).store := by
  cases e with
  | beforeRun browser =>
    obtain ⟨attempt, matrix, t', heffect, -, hspecs, htests, -, -⟩ :=
      beforeRun_open identity browser h.isOpen (r := c.state)
    have hrec := Course.recorded_of_report Tables.store identity now
      (e := .beforeRun browser) heffect
    rw [hrec.store]
    exact Tables.keeps_of_eq hspecs htests
  | afterRun details =>
    have hframe := afterRun_specs_tests now c.state c.store
    exact Tables.keeps_of_eq hframe.1 hframe.2
  | beforeSpec name =>
    -- no spec can begin before the run has
    by_cases hstage : stage = .unstarted
    · rw [(Course.record_beforeSpec_of_matrixId_eq_none Tables.store identity now
        (h.noShard hstage) name).2]
      exact Tables.Keeps.refl _
    · obtain ⟨matrix, hmatrix, hhas⟩ := h.hasShard hstage
      rw [(Course.record_beforeSpec_open identity now name h.isOpen hmatrix hhas).store]
      exact Tables.keeps_addSpec _ _ _
  | afterSpec name results =>
    exact h.keeps_afterSpec identity now name results fun first hstage =>
      hagain name results first rfl hstage

/-- A spec that ends again keeps what is settled only if it says nothing new. -/
theorem Standing.eq_of_keeps {first results : SpecResults} (h : Standing (.ended first) c)
    (name : String)
    (hkeeps : c.store.Keeps (c.record Tables.store identity now (.afterSpec name results)).store) :
    results.stats = first.stats ∧ results.tests = [] := by
  obtain ⟨current, hcurrent, hhas, hrows⟩ : c.Remembers (some (.ofStats first.stats)) := h.spec
  rw [(Course.record_afterSpec_open identity now name results h.isOpen hcurrent hhas).store]
    at hkeeps
  obtain ⟨row, hrow, hid⟩ := List.any_eq_true.mp hhas
  have hid : row.id = current.id := by simpa using hid
  have hsummary := hrows row hrow hid
  obtain ⟨hrow', htests⟩ := hkeeps row hrow (by rw [hsummary]; exact Option.some_ne_none _)
  constructor
  · have hagain := Tables.summary_of_mem_setSummary hrow' hid
    rw [hsummary] at hagain
    exact (SpecSummary.ofStats_injective (Option.some.inj hagain)).symm
  · rw [hid, Tables.testsOf_addTests_self] at htests
    have hnil := List.append_right_eq_self.mp htests
    cases hresults : results.tests with
    | nil => rfl
    | cons test rest =>
      rw [hresults] at hnil
      cases hnil

/-! ## Lines and events -/

/-- The events of the first `n` lines. -/
def eventsAtLine (stream : List UInt8) (n : Nat) : List Event :=
  throughEnd ((readable ((Text.lines stream).take n)).filterMap LineContent.event?)

/-- A new recorder with new tables after events. -/
def courseOf (identity : Identity) (now : Timestamp) (events : List Event) : Course Tables :=
  (Course.start RunState.initial Tables.empty).recordAll Tables.store identity now events

/-- The tables at a line are those of the recording of the events up to it. -/
theorem tablesAtLine_eq (n : Nat) :
    tablesAtLine identity now stream n = (courseOf identity now (eventsAtLine stream n)).store := by
  rw [tablesAtLine, replayLines_eq]
  exact congrArg Course.store (Replay.takeAll_eq_recordAll Tables.store identity now _
    (p := Replay.start RunState.initial Tables.empty) (fun hc => Phase.noConfusion hc)).1

variable (stream) in
/-- The events of fewer lines come first. -/
theorem eventsAtLine_mono {m n : Nat} (h : m ≤ n) :
    eventsAtLine stream m <+: eventsAtLine stream n := by
  refine throughEnd_mono (List.IsPrefix.filterMap _ ?_)
  rw [readable_take, readable_take]
  exact List.take_prefix_take_left h

variable (stream) in
/-- The events up to a line are the first of those that are dispatched. -/
theorem eventsAtLine_isPrefix_dispatched (n : Nat) :
    eventsAtLine stream n <+: dispatched stream := by
  refine throughEnd_mono (List.IsPrefix.filterMap _ ?_)
  rw [readable_take]
  exact List.take_prefix _ _

variable (stream) in
/-- Any first part of the dispatched events has a line up to which it goes. -/
theorem exists_eventsAtLine {before : List Event} (h : before <+: dispatched stream) :
    ∃ n, eventsAtLine stream n = before := by
  obtain ⟨n, hn⟩ := exists_take_throughEnd h
  refine ⟨n, ?_⟩
  rw [eventsAtLine, readable_take]
  exact hn

theorem courseOf_append_singleton (events : List Event) (e : Event) :
    courseOf identity now (events ++ [e]) =
      (courseOf identity now events).record Tables.store identity now e :=
  Course.recordAll_append ..

variable (identity now) in
/-- Events without an end of the run lead a new recorder to their stage. -/
theorem standing_courseOf {events : List Event} (h : ∀ e ∈ events, e.kind ≠ .afterRun) :
    Standing (specStage events) (courseOf identity now events) :=
  standing_start.recordAll h

/-- The ends that a stream reports again say nothing new. -/
def RepeatsNothingNew (events : List Event) : Prop :=
  ∀ before name results after first,
    events = before ++ .afterSpec name results :: after → specStage before = .ended first →
      results.stats = first.stats ∧ results.tests = []

/-- What is settled after some of the dispatched events is kept by the ones that follow. -/
theorem keeps_of_append {before between after : List Event}
    (hevents : dispatched stream = before ++ between ++ after)
    (h : RepeatsNothingNew (dispatched stream)) :
    (courseOf identity now before).store.Keeps
      (courseOf identity now (before ++ between)).store := by
  -- event by event, each one recorded where the ones before it have led
  induction between generalizing before with
  | nil =>
    rw [List.append_nil]
    exact Tables.Keeps.refl _
  | cons e rest ih =>
    have hsplit : dispatched stream = before ++ e :: (rest ++ after) := by
      rw [hevents, List.append_assoc]
      rfl
    have hgoing := kind_ne_afterRun_of_throughEnd hsplit (List.cons_ne_nil _ _)
    have hstep := (standing_courseOf identity now hgoing).keeps_record identity now e
      fun name results first he hstage =>
        h before name results (rest ++ after) first (he ▸ hsplit) hstage
    rw [← courseOf_append_singleton] at hstep
    have hevents' : dispatched stream = before ++ [e] ++ rest ++ after := by
      rw [hevents]
      simp
    have hrest := ih hevents'
    rw [List.append_assoc] at hrest
    exact hstep.trans hrest

/-- **Aggregates are populated once exactly where no end of a spec is reported again with something
new.** For every stream: no line changes the summary of a settled spec or adds tests to it if and
only if every end that comes when the last spec has ended already has the counts that were
reported last and no tests. -/
theorem populatesOnce_iff (identity : Identity) (now : Timestamp) (stream : List UInt8) :
    PopulatesOnce identity now stream ↔ RepeatsNothingNew (dispatched stream) := by
  constructor
  · -- compare the lines just before the repeated end with the lines up to and including it
    intro h before name results after first hevents hstage
    have hnext : before ++ [.afterSpec name results] <+: dispatched stream :=
      ⟨after, by rw [hevents]; simp⟩
    obtain ⟨m, hm⟩ := exists_eventsAtLine stream ⟨_, hevents.symm⟩
    obtain ⟨n, hn⟩ := exists_eventsAtLine stream hnext
    have hle : m ≤ n := by
      -- with fewer lines there cannot be one event more
      rcases Nat.le_total m n with hle | hle
      · exact hle
      · have hlength := (eventsAtLine_mono stream hle).length_le
        rw [hm, hn, List.length_append, List.length_singleton] at hlength
        omega
    have hkeeps := h m n hle
    rw [tablesAtLine_eq, tablesAtLine_eq, hm, hn, courseOf_append_singleton] at hkeeps
    have hgoing := kind_ne_afterRun_of_throughEnd hevents (List.cons_ne_nil _ _)
    have hstanding := standing_courseOf identity now hgoing
    rw [hstage] at hstanding
    exact hstanding.eq_of_keeps name hkeeps
  · -- what lies between two numbers of lines is a list of events, taken one by one
    intro h m n hle
    obtain ⟨between, hbetween⟩ := eventsAtLine_mono stream hle
    obtain ⟨after, hafter⟩ := eventsAtLine_isPrefix_dispatched stream n
    rw [tablesAtLine_eq, tablesAtLine_eq, ← hbetween]
    refine keeps_of_append (?_ : dispatched stream = _ ++ between ++ after) h
    rw [hbetween, hafter]

/-- A stream that reports the end of its only spec twice, the second time with another count and
with a test. -/
def repeatedEnd : List UInt8 :=
  ("[\"before:run\",[[\"chrome\"]]]\n[\"before:spec\",[\"a.ts\"]]\n" ++
    "[\"after:spec\",[\"a.ts\"],[[0]]]\n[\"after:spec\",[\"a.ts\"],[[1,1]," ++
    "[[\"r1\",[\"A\",\"b\"],\"passed\",[]]]]]\n").toUTF8.data.toList

/-- The second end replaces the summary that the first one gave to the spec. -/
theorem not_populatesOnce_repeatedEnd : ¬ PopulatesOnce .sample ⟨0, 0⟩ repeatedEnd := by
  intro h
  have hsettled : (⟨⟨3⟩, "a.ts", ⟨2⟩, some ⟨0, 0, 0, 0, 0, .pass⟩⟩ : SpecRow) ∈
      (tablesAtLine .sample ⟨0, 0⟩ repeatedEnd 3).specs := by decide +kernel
  obtain ⟨hkept, -⟩ := h 3 4 (by decide) _ hsettled (Option.some_ne_none _)
  have hreplaced : (⟨⟨3⟩, "a.ts", ⟨2⟩, some ⟨0, 0, 0, 0, 0, .pass⟩⟩ : SpecRow) ∉
      (tablesAtLine .sample ⟨0, 0⟩ repeatedEnd 4).specs := by decide +kernel
  exact hreplaced hkept

end RunJournal
