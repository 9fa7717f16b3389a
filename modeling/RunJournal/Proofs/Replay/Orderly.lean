import RunJournal.Proofs.Recorder.Effect
import RunJournal.Proofs.Replay.Dispatch

/-!
# Orderly runs

A stream whose events come in the order that the course of a run prescribes leaves tables behind
that can be told from its events alone. `orderlyTables` says which: one attempt, one shard, a row
for each spec that began, and under each spec a row for each of its tests. It counts identifiers
itself and knows no store, no recorder and no requests.

`replay_orderly` is the main statement: a replay of any text into new tables, by a new recorder of
any identity, that finds no event out of order fails to record none of them and leaves exactly these
tables, whatever blank, malformed and late lines stand between the events.

The proof follows a recorder from one spec to the next. `Underway` is what holds between two specs:
the first two identifiers were given to the attempt and the shard, the recorder remembers them, and
no spec has an identifier that is still to be given.
-/

namespace RunJournal

/-! ## The tables of an orderly run -/

/-- One spec of a run: the name under which it began, and what it came to once it has ended. -/
structure SpecCourse where
  name : String
  results : Option SpecResults

/-- The tests of a spec; none before it has ended. -/
def SpecCourse.tests (c : SpecCourse) : List TestResult :=
  match c.results with
  | some results => results.tests
  | none => []

/-- The specs of a run, in the order in which they began. The results of a spec are those of the
end that comes right after its start. -/
def specCourses : List Event → List SpecCourse
  | .beforeSpec name :: .afterSpec _ results :: rest => ⟨name, some results⟩ :: specCourses rest
  | .beforeSpec name :: rest => ⟨name, none⟩ :: specCourses rest
  | _ :: rest => specCourses rest
  | [] => []

/-- The name of a test by its titles: the second one, or else the last, or else nothing. -/
def expectedName : List String → String
  | _ :: second :: _ => second
  | [only] => only
  | [] => ""

/-- The row of a test of the spec with the identifier `spec`. -/
def expectedTest (spec : Nat) (test : TestResult) : NewTest where
  name := expectedName test.title
  specId := ⟨spec⟩
  status := test.state
  retries := (min test.attempts.length 2147483647 : Nat)
  retryData := (Json.array (test.attempts.map Attempt.toJson)).compact

/-- The rows of the tests of one spec, with identifiers that count on from `id`. -/
def expectedTestsOf (spec : Nat) : Nat → List TestResult → List TestRow
  | _, [] => []
  | id, test :: rest => ⟨⟨id⟩, expectedTest spec test⟩ :: expectedTestsOf spec (id + 1) rest

/-- The rows of specs. A spec is given the next identifier, and its tests the ones after it. -/
def expectedSpecs : Nat → List SpecCourse → List SpecRow
  | _, [] => []
  | id, c :: rest =>
    ⟨⟨id⟩, c.name, ⟨2⟩, c.results.map fun results => .ofStats results.stats⟩ ::
      expectedSpecs (id + 1 + c.tests.length) rest

/-- The rows of the tests of specs. -/
def expectedTests : Nat → List SpecCourse → List TestRow
  | _, [] => []
  | id, c :: rest =>
    expectedTestsOf id (id + 1) c.tests ++ expectedTests (id + 1 + c.tests.length) rest

/-- How many tests specs have. -/
def testCount : List SpecCourse → Nat
  | [] => 0
  | c :: rest => c.tests.length + testCount rest

/-- Whether the end of a run is among its events. -/
def hasEnded (events : List Event) : Bool := events.any fun e => e.kind == .afterRun

/-- The attempt that a recorder of an identity makes for a run in a browser. -/
def expectedAttempt (identity : Identity) (browser : String) : NewAttempt where
  workflowId := identity.workflowId
  attempt := identity.attempt
  browser := browser
  os := identity.os
  repo := identity.repo
  committer := identity.committer
  runType := identity.runType
  commitMsg := identity.commitMsg
  branch := identity.branch

/-- The tables that the events of an orderly run leave behind; `now` is the time of its end. -/
def orderlyTables (identity : Identity) (now : Timestamp) : List Event → Tables
  | .beforeRun browser :: rest =>
    let courses := specCourses rest
    { attempts :=
        [⟨⟨1⟩, expectedAttempt identity browser, if hasEnded rest then some now else none⟩]
      matrices :=
        [⟨⟨2⟩, ⟨identity.workflowId, identity.matrixId,
          if hasEnded rest then .done else .started, ⟨1⟩⟩⟩]
      specs := expectedSpecs 3 courses
      tests := expectedTests 3 courses
      lastId := 2 + courses.length + testCount courses
      closed := hasEnded rest }
  | _ => .empty

/-! ## Rows of tests -/

theorem row_eq_expectedTest (spec : Nat) (test : TestResult) :
    test.row ⟨spec⟩ = expectedTest spec test := by
  have hname : test.displayName = expectedName test.title := by
    rw [TestResult.displayName]
    match test.title with
    | [] => rfl
    | [_] => rfl
    | _ :: _ :: _ => rfl
  rw [TestResult.row, expectedTest, hname]
  rfl

theorem testRows_eq_expectedTestsOf (spec id : Nat) (tests : List TestResult) :
    Tables.testRows ⟨spec⟩ id tests = expectedTestsOf spec id tests := by
  induction tests generalizing id with
  | nil => rfl
  | cons test rest ih => rw [Tables.testRows, expectedTestsOf, row_eq_expectedTest, ih]

/-! ## From one spec to the next -/

variable (identity : Identity) (now : Timestamp)

/-- Where a recorder stands between two specs of an orderly run. -/
structure Underway (browser : String) (c : Course Tables) : Prop where
  attemptId : c.state.attemptId = some ⟨1⟩
  matrixId : c.state.matrixId = some ⟨2⟩
  attempts : c.store.attempts = [⟨⟨1⟩, expectedAttempt identity browser, none⟩]
  matrices : c.store.matrices = [⟨⟨2⟩, ⟨identity.workflowId, identity.matrixId, .started, ⟨1⟩⟩⟩]
  isOpen : c.store.closed = false
  bounded : c.store.SpecsBounded

/-- The tables that are left after the events that follow, when no event is out of order. -/
def tablesAfter (browser : String) (t : Tables) (rest : List Event) : Tables :=
  { attempts := [⟨⟨1⟩, expectedAttempt identity browser, if hasEnded rest then some now else none⟩]
    matrices := [⟨⟨2⟩, ⟨identity.workflowId, identity.matrixId,
      if hasEnded rest then .done else .started, ⟨1⟩⟩⟩]
    specs := t.specs ++ expectedSpecs (t.lastId + 1) (specCourses rest)
    tests := t.tests ++ expectedTests (t.lastId + 1) (specCourses rest)
    lastId := t.lastId + (specCourses rest).length + testCount (specCourses rest)
    closed := hasEnded rest }

variable {identity} {browser : String} {c : Course Tables}

theorem Underway.hasMatrix (h : Underway identity browser c) :
    c.store.hasMatrix ⟨2⟩ = true := by
  rw [Tables.hasMatrix, h.matrices]
  rfl

theorem Underway.hasAttempt (h : Underway identity browser c) :
    c.store.hasAttempt ⟨1⟩ = true := by
  rw [Tables.hasAttempt, h.attempts]
  rfl

/-- The start of a run takes the first two identifiers. -/
theorem underway_record_beforeRun (identity : Identity) (browser : String) :
    let c := (Course.start RunState.initial Tables.empty).record Tables.store identity now
      (.beforeRun browser)
    Underway identity browser c ∧ c.failures = 0 ∧
      c.store.specs = [] ∧ c.store.tests = [] ∧ c.store.lastId = 2 := by
  intro c
  refine ⟨⟨rfl, rfl, rfl, rfl, rfl, ?_⟩, rfl, rfl, rfl, rfl⟩
  intro row hrow
  exact absurd hrow List.not_mem_nil

/-- A spec that begins is given the next identifier. -/
theorem Underway.record_beforeSpec (h : Underway identity browser c) (name : String) :
    Course.Recorded c (c.record Tables.store identity now (.beforeSpec name))
      { c.state with spec := some ⟨name, c.store.freshId⟩ } (c.store.addSpec name ⟨2⟩) :=
  Course.record_beforeSpec_open identity now name h.isOpen h.matrixId h.hasMatrix

/-- A spec that begins and ends leaves its row with its summary, and the rows of its tests. -/
theorem Underway.record_spec (h : Underway identity browser c) (name ended : String)
    (results : SpecResults) :
    let c' := (c.record Tables.store identity now (.beforeSpec name)).record Tables.store identity
      now (.afterSpec ended results)
    Underway identity browser c' ∧ c'.failures = c.failures ∧
      c'.store.specs = c.store.specs ++
        [⟨⟨(c.store.lastId + 1 : Nat)⟩, name, ⟨2⟩, some (.ofStats results.stats)⟩] ∧
      c'.store.tests = c.store.tests ++
        expectedTestsOf (c.store.lastId + 1) (c.store.lastId + 1 + 1) results.tests ∧
      c'.store.lastId = c.store.lastId + 1 + results.tests.length := by
  intro c'
  have hbegun := h.record_beforeSpec now name
  generalize hb : c.record Tables.store identity now (.beforeSpec name) = begun at hbegun
  -- the end is written to the row that the start has just made
  have hended : Course.Recorded begun c' begun.state
      ((begun.store.setSummary c.store.freshId (.ofStats results.stats)).addTests c.store.freshId
        results.tests) := by
    have hc' : c' = begun.record Tables.store identity now (.afterSpec ended results) := by
      rw [← hb]
    rw [hc']
    refine Course.record_afterSpec_open identity now ended results ?_
      (?_ : begun.state.spec = some ⟨name, c.store.freshId⟩) ?_
    · rw [hbegun.store]
      exact h.isOpen
    · rw [hbegun.state]
    · rw [hbegun.store]
      exact Tables.hasSpec_addSpec _ _ _
  have hstate : c'.state = { c.state with spec := some ⟨name, c.store.freshId⟩ } :=
    hended.state.trans hbegun.state
  have hstore := hended.store
  rw [hbegun.store] at hstore
  have hspecs : c'.store.specs = c.store.specs ++
      [⟨c.store.freshId, name, ⟨2⟩, some (.ofStats results.stats)⟩] := by
    rw [hstore]
    exact Tables.specs_setSummary_addSpec h.bounded name ⟨2⟩ (.ofStats results.stats)
  have hlast : c'.store.lastId = c.store.lastId + 1 + results.tests.length := by
    rw [hstore]
    rfl
  refine ⟨⟨?_, ?_, ?_, ?_, ?_, ?_⟩, ?_, hspecs, ?_, hlast⟩
  · rw [hstate]
    exact h.attemptId
  · rw [hstate]
    exact h.matrixId
  · rw [hstore]
    exact h.attempts
  · rw [hstore]
    exact h.matrices
  · rw [hstore]
    exact h.isOpen
  · rw [hstore]
    exact (h.bounded.addSpec name ⟨2⟩).setSummary_addTests _ _ _
  · exact hended.failures.trans hbegun.failures
  · rw [hstore]
    exact congrArg (c.store.tests ++ ·) (testRows_eq_expectedTestsOf _ _ _)

/-- The end of a run marks both of its rows. -/
theorem Underway.record_afterRun (h : Underway identity browser c) (details : Option Json) :
    let c' := c.record Tables.store identity now (.afterRun details)
    c'.failures = c.failures ∧ c'.store = tablesAfter identity now browser c.store
      [.afterRun details] := by
  have hended := Course.record_afterRun_open identity now details h.isOpen h.attemptId h.matrixId
    h.hasAttempt h.hasMatrix
  refine ⟨hended.failures, hended.store.trans ?_⟩
  simp [Tables.markDone, Tables.setEndTime, Tables.shut, tablesAfter, h.attempts, h.matrices,
    hasEnded, specCourses, expectedSpecs, expectedTests, testCount, Event.kind]

/-! ## Whole runs -/

/-- Nothing follows the end of a run without being out of order. -/
theorem eq_nil_of_disorder_finished {rest : List Event} (h : disorder .finished rest = 0) :
    rest = [] := by
  cases rest with
  | nil => rfl
  | cons e rest =>
    rw [disorder] at h
    have hnot : Phase.allows .finished e.kind = false := rfl
    rw [hnot] at h
    simp at h

/-- Within a spec only its end is in order. -/
theorem disorder_inSpec {rest : List Event} (h : disorder .inSpec rest = 0) :
    rest = [] ∨ ∃ name results rest', rest = .afterSpec name results :: rest' ∧
      disorder .betweenSpecs rest' = 0 := by
  cases rest with
  | nil => exact Or.inl rfl
  | cons e rest =>
    rw [disorder] at h
    cases e with
    | afterSpec name results =>
      refine Or.inr ⟨name, results, rest, rfl, ?_⟩
      simpa [Phase.allows, Phase.after, Event.kind] using h
    | beforeRun _ => simp [Phase.allows, Event.kind] at h
    | beforeSpec _ => simp [Phase.allows, Event.kind] at h
    | afterRun _ => simp [Phase.allows, Event.kind] at h

/-- Between two specs, the start of a spec or the end of the run is in order. -/
theorem disorder_betweenSpecs {e : Event} {rest : List Event}
    (h : disorder .betweenSpecs (e :: rest) = 0) :
    (∃ name, e = .beforeSpec name ∧ disorder .inSpec rest = 0) ∨
      (∃ details, e = .afterRun details ∧ rest = []) := by
  rw [disorder] at h
  cases e with
  | beforeSpec name =>
    refine Or.inl ⟨name, rfl, ?_⟩
    simpa [Phase.allows, Phase.after, Event.kind] using h
  | afterRun details =>
    refine Or.inr ⟨details, rfl, eq_nil_of_disorder_finished ?_⟩
    simpa [Phase.allows, Phase.after, Event.kind] using h
  | beforeRun _ => simp [Phase.allows, Event.kind] at h
  | afterSpec _ _ => simp [Phase.allows, Event.kind] at h

/-- What a spec that began and ended has added is what the first of the specs to come adds. -/
theorem tablesAfter_spec {t t' : Tables} (browser name ended : String) (results : SpecResults)
    (rest : List Event)
    (hspecs : t'.specs = t.specs ++
      [⟨⟨(t.lastId + 1 : Nat)⟩, name, ⟨2⟩, some (.ofStats results.stats)⟩])
    (htests : t'.tests = t.tests ++
      expectedTestsOf (t.lastId + 1) (t.lastId + 1 + 1) results.tests)
    (hlast : t'.lastId = t.lastId + 1 + results.tests.length) :
    tablesAfter identity now browser t' rest =
      tablesAfter identity now browser t
        (.beforeSpec name :: .afterSpec ended results :: rest) := by
  -- both sides count the identifier of the spec and those of its tests before the rest begins
  have hended : hasEnded (.beforeSpec name :: .afterSpec ended results :: rest) = hasEnded rest :=
    rfl
  have hnext : t'.lastId + 1 = t.lastId + 1 + 1 + results.tests.length := by omega
  have htotal : t'.lastId + (specCourses rest).length + testCount (specCourses rest) =
      t.lastId + (specCourses (.beforeSpec name :: .afterSpec ended results :: rest)).length +
        testCount (specCourses (.beforeSpec name :: .afterSpec ended results :: rest)) := by
    simp only [specCourses, testCount, SpecCourse.tests, List.length_cons]
    omega
  rw [tablesAfter, tablesAfter, hended, hspecs, htests, htotal, hnext]
  simp only [specCourses, expectedSpecs, expectedTests, SpecCourse.tests, List.append_assoc,
    List.singleton_append, Option.map_some]

/-- The events of an orderly run, recorded from between two specs on: none fails, and the rows that
they make are added to those that are there. -/
theorem Underway.recordAll (rest : List Event) (horder : disorder .betweenSpecs rest = 0)
    (h : Underway identity browser c) :
    (c.recordAll Tables.store identity now rest).failures = c.failures ∧
      (c.recordAll Tables.store identity now rest).store =
        tablesAfter identity now browser c.store rest := by
  -- the induction is on the specs of the run, so that both events of a spec are taken at once
  induction rest using specCourses.induct generalizing c with
  | case1 name ended results rest ih =>
    obtain ⟨hnext, hfail, hspecs, htests, hlast⟩ := h.record_spec now name ended results
    have hrest : disorder .betweenSpecs rest = 0 := by
      simpa [disorder, Phase.allows, Phase.after, Event.kind] using horder
    obtain ⟨hfailRest, hstore⟩ := ih hrest hnext
    refine ⟨hfailRest.trans hfail, hstore.trans ?_⟩
    exact tablesAfter_spec now browser name ended results rest hspecs htests hlast
  | case2 name rest hnot =>
    rcases disorder_betweenSpecs horder with ⟨name', -, hin⟩ | ⟨details, he, -⟩
    · rcases disorder_inSpec hin with rfl | ⟨ended, results, rest', rfl, -⟩
      · -- the stream stops within the spec
        have hbegun := h.record_beforeSpec now name
        refine ⟨hbegun.failures, hbegun.store.trans ?_⟩
        simp [Tables.addSpec, Tables.freshId, tablesAfter, hasEnded, specCourses, expectedSpecs,
          expectedTests, expectedTestsOf, SpecCourse.tests, testCount, Event.kind, h.attempts,
          h.matrices, h.isOpen]
      · exact absurd rfl (hnot ended results rest')
    · cases he
  | case3 e rest hnotEnded hnotBegun ih =>
    rcases disorder_betweenSpecs horder with ⟨name, rfl, -⟩ | ⟨details, rfl, rfl⟩
    · exact absurd rfl (hnotBegun name)
    · exact h.record_afterRun now details
  | case4 =>
    refine ⟨rfl, ?_⟩
    show (⟨c.store.attempts, c.store.matrices, c.store.specs, c.store.tests, c.store.lastId,
      c.store.closed⟩ : Tables) = _
    rw [h.attempts, h.matrices, h.isOpen]
    simp [tablesAfter, hasEnded, specCourses, expectedSpecs, expectedTests, testCount]

/-- Events in order, recorded by a new recorder into new tables. -/
theorem recordAll_orderly (identity : Identity) (events : List Event)
    (horder : disorder .awaitingRun events = 0) :
    let c := (Course.start RunState.initial Tables.empty).recordAll Tables.store identity now events
    c.failures = 0 ∧ c.store = orderlyTables identity now events := by
  cases events with
  | nil => exact ⟨rfl, rfl⟩
  | cons e rest =>
    rw [disorder] at horder
    cases e with
    | beforeRun browser =>
      have hrest : disorder .betweenSpecs rest = 0 := by
        simpa [Phase.allows, Phase.after, Event.kind] using horder
      obtain ⟨hunderway, hfail, hspecs, htests, hlast⟩ :=
        underway_record_beforeRun now identity browser
      obtain ⟨hfailRest, hstore⟩ := hunderway.recordAll now rest hrest
      refine ⟨hfailRest.trans hfail, hstore.trans ?_⟩
      rw [tablesAfter, hspecs, htests, hlast]
      rfl
    | beforeSpec _ => simp [Phase.allows, Event.kind] at horder
    | afterSpec _ _ => simp [Phase.allows, Event.kind] at horder
    | afterRun _ => simp [Phase.allows, Event.kind] at horder

/-- **An orderly stream is recorded completely.** The replay of a text by a new recorder into new
tables returns its counts. If none of its events came out of order, none failed to be recorded, and
the tables are those that the dispatched events alone prescribe. -/
theorem replay_orderly (identity : Identity) (now : Timestamp) (stream : List UInt8)
    (htext : IsText stream) :
    ∃ summary,
      (replay Tables.store identity now stream .initial .empty).1 = .ok summary ∧
      (summary.outOfOrder = 0 →
        summary.failedHooks = 0 ∧
        (replay Tables.store identity now stream .initial .empty).2.store =
          orderlyTables identity now (dispatched stream)) := by
  refine ⟨_, replay_of_isText Tables.store identity now .initial .empty htext, fun hzero => ?_⟩
  rw [replay_outOfOrder] at hzero
  have hcourse := replay_course Tables.store identity now stream .initial .empty
  obtain ⟨hfail, hstore⟩ := recordAll_orderly now identity (dispatched stream) hzero
  exact ⟨(congrArg Course.failures hcourse).trans hfail,
    (congrArg Course.store hcourse).trans hstore⟩

/-- A stream in order with a line that holds no event; it ends within its second spec. -/
def orderlySample : List UInt8 :=
  ("[\"before:run\",[[\"chrome\"]]]\n[\"before:spec\",[\"a.ts\"]]\nno event\n" ++
    "[\"after:spec\",[\"a.ts\"],[[1,0,1],[[\"r1\",[\"A\",\"b\"],\"failed\",[]]]]]\n" ++
    "[\"before:spec\",[\"b.ts\"]]\n").toUTF8.data.toList

/-- The sample is a text in order, and the replay leaves its three kinds of row: those of the run,
two specs and one test. -/
theorem replay_orderly_sample :
    IsText orderlySample ∧
      (replay Tables.store .sample ⟨0, 0⟩ orderlySample .initial .empty).1 =
        .ok ⟨4, 2, 0, 1, 0, 0, false⟩ ∧
      (replay Tables.store .sample ⟨0, 0⟩ orderlySample .initial .empty).2.store =
        orderlyTables .sample ⟨0, 0⟩ (dispatched orderlySample) ∧
      (orderlyTables .sample ⟨0, 0⟩ (dispatched orderlySample)).lastId = 5 := by
  have htext : IsText orderlySample := by decide +kernel
  have hcounts : (replay Tables.store .sample ⟨0, 0⟩ orderlySample .initial .empty).1.toOption =
      some ⟨4, 2, 0, 1, 0, 0, false⟩ := by decide +kernel
  have hlast : (orderlyTables .sample ⟨0, 0⟩ (dispatched orderlySample)).lastId = 5 := by
    decide +kernel
  obtain ⟨summary, hok, horderly⟩ := replay_orderly .sample ⟨0, 0⟩ orderlySample htext
  rw [hok] at hcounts
  obtain rfl : summary = ⟨4, 2, 0, 1, 0, 0, false⟩ := Option.some.inj hcounts
  exact ⟨htext, hok, (horderly rfl).2, hlast⟩

end RunJournal
