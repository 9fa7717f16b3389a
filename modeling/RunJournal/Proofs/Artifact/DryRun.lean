import RunJournal.Proofs.Artifact.Delivery
import RunJournal.Proofs.Recorder.Artifacts
import RunJournal.Proofs.Replay.Dispatch
import RunJournal.Proofs.Store.Backed

/-!
# The artifacts of a dry run

A dry run reports the keys of all artifacts that a recording would have uploaded. Which keys these
are can be told from the steps of its recorder and from the files that are there: `Step.Yields`
joins the tests of a spec that has ended with the screenshots that have the same identifier, and
looks at failed attempts and not at how a test came out in the end. `dryRun_artifacts` says that the
report has these keys and no other, that they belong to rows which are in the tables of the report,
and that files which are missing change nothing but the artifacts.

A recorder on tables in memory makes rows for all tests of a spec or for none
(`endedSpec?_of_mem_testRows`), so that no screenshot is left over from the end of a spec that
failed halfway.
-/

namespace RunJournal

/-! ## Steps of a course -/

namespace Course

variable {σ : Type} (store : Store σ) (identity : Identity) (now : Timestamp)

/-- The steps of a recorder that is given events one after the other, all at one time. -/
def steps (events : List Event) (c : Course σ) : List Step :=
  stepsOf store identity (events.map fun e => (now, e)) c.state c.store

/-- There is a step for each event. -/
theorem map_event_steps (events : List Event) (c : Course σ) :
    (c.steps store identity now events).map Step.event = events := by
  induction events generalizing c with
  | nil => rfl
  | cons e rest ih => exact congrArg (e :: ·) (ih (c.record store identity now e))

theorem uploads_recordAll (events : List Event) (c : Course σ) :
    (c.recordAll store identity now events).uploads =
      c.uploads ++ (c.steps store identity now events).flatMap Step.uploads := by
  induction events generalizing c with
  | nil => exact (List.append_nil _).symm
  | cons e rest ih =>
    show ((c.record store identity now e).recordAll store identity now rest).uploads = _
    rw [ih]
    exact List.append_assoc ..

variable {store identity now}

/-- Every step is for one of the events, by the recorder as it is after the events before. -/
theorem exists_of_mem_steps {events : List Event} {c : Course σ} {t : Step}
    (ht : t ∈ c.steps store identity now events) :
    ∃ before e after, events = before ++ e :: after ∧
      t = stepOf store identity now e (c.recordAll store identity now before).state
        (c.recordAll store identity now before).store := by
  induction events generalizing c with
  | nil => cases ht
  | cons e rest ih =>
    rcases List.mem_cons.mp ht with rfl | ht
    · exact ⟨[], e, rest, rfl, rfl⟩
    · obtain ⟨before, e', after, rfl, hstep⟩ := ih (c := c.record store identity now e) ht
      exact ⟨e :: before, e', after, rfl, hstep⟩

/-- Events do to the tables what some requests do to them. -/
theorem leadsTo_recordAll {tables : σ → Tables} (h : store.BackedBy tables) (events : List Event)
    (c : Course σ) :
    (tables c.store).LeadsTo (tables (c.recordAll store identity now events).store) := by
  induction events generalizing c with
  | nil => exact .refl _
  | cons e rest ih =>
    have hfirst := h.leadsTo_recordEvent identity now e c.state c.store
    exact hfirst.trans (ih (c.record store identity now e))

end Course

/-! ## What a step yields -/

/-- The end of a spec was recorded, and the spec has the row `spec`. -/
def Step.RecordedUnder (t : Step) (results : SpecResults) (spec : SpecId) : Prop :=
  (∃ name, t.event = .afterSpec name results) ∧ t.endedSpec? = some spec

/-- The keys that the end of a spec leads to: those of the screenshots of its tests with a failed
attempt, and that of its video if there is such a test; as far as there are files to upload. -/
inductive Step.Yields (disk : Disk) (t : Step) : String → Prop where
  | screenshot {results : SpecResults} {spec : SpecId} {test : TestResult} {id : TestId}
      {shot : Screenshot} (hended : t.RecordedUnder results spec)
      (hrow : (test, spec, id) ∈ t.testRows results) (hfailed : test.hasFailedAttempt = true)
      (hshot : shot ∈ results.screenshots) (htest : shot.testId = test.testId)
      (hfile : disk.Readable shot.path) : Yields disk t (screenshotKey id spec shot.attemptIndex)
  | video {results : SpecResults} {spec : SpecId} {path : String}
      (hended : t.RecordedUnder results spec) (hfailed : results.hasFailedAttempt = true)
      (hvideo : results.video = some path) (hfile : disk.Readable path) :
      Yields disk t (videoKey spec)

/-- The rows of a spec that has ended: its own, and one for each of its tests, in order. -/
structure Step.HasRows (t : Step) (tables : Tables) (results : SpecResults) (spec : SpecId) :
    Prop where
  own : ∃ row ∈ tables.specs, row.id = spec
  tests : (t.testRows results).map Prod.fst = results.tests
  rows : ∀ test spec' id, (test, spec', id) ∈ t.testRows results →
    spec' = spec ∧ ⟨id, test.row spec⟩ ∈ tables.tests

variable {identity : Identity} {now : Timestamp}

/-- With tables behind it a recorder that has made a row for a test makes all of them, since a spec
that could be given its summary is there for its tests too. -/
theorem endedSpec?_of_mem_testRows {name : String} {results : SpecResults} {r : RunState}
    {tables : Tables} {test : TestResult} {spec : SpecId} {id : TestId}
    (h : (test, spec, id) ∈
      (stepOf Tables.store identity now (.afterSpec name results) r tables).testRows results) :
    (stepOf Tables.store identity now (.afterSpec name results) r tables).endedSpec? =
      some spec := by
  obtain ⟨hspec, hcall⟩ := call_of_mem_testRows Tables.store identity h
  obtain ⟨current, hcurrent, rfl⟩ := Option.map_eq_some_iff.mp hspec
  rcases hanswer : Tables.store (.completeSpec current.id (.ofStats results.stats)) tables
    with ⟨answer, tables'⟩
  -- a row of a test shows that the spec was completed, and open tables then record all the tests
  cases answer with
  | error cause =>
    rw [calls_stepOf_of_refused Tables.store identity hcurrent hanswer] at hcall
    cases List.mem_singleton.mp hcall
  | ok answer =>
    have hhas : tables.hasSpec current.id = true := by
      cases Tables.served_of_store hanswer with
      | specCompleted hspec => exact hspec
    obtain ⟨uploads, notices, heffect⟩ :=
      afterSpec_open name results (Tables.open_of_store hanswer) hcurrent hhas
    have hrecorded :
        (stepOf Tables.store identity now (.afterSpec name results) r tables).outcome =
          .recorded := congrArg HookReport.outcome heffect
    rcases stepOf_afterSpec Tables.store identity now name results r tables with
      ⟨houtcome, -, -⟩ | ⟨current', result, blocks, hcurrent', hmade, houtcome, hcalls, -, -⟩
    · rw [houtcome] at hrecorded
      cases hrecorded
    · cases hcurrent.symm.trans hcurrent'
      rw [Step.endedSpec?_eq hmade houtcome hcalls, if_pos (houtcome.symm.trans hrecorded)]

/-- **The uploads of a step with files to read are what the step yields**, and their keys are kept
as they are. -/
theorem yields_iff {disk : Disk} {e : Event} {r : RunState} {tables : Tables} {k : String} :
    (∃ u ∈ (stepOf Tables.store identity now e r tables).uploads,
        disk.Readable u.path ∧ k = objectPath u.key) ↔
      (stepOf Tables.store identity now e r tables).Yields disk k := by
  rw [uploads_stepOf]
  constructor
  · rintro ⟨u, hu, hfile, rfl⟩
    obtain ⟨a, ha, rfl⟩ := List.mem_map.mp hu
    rw [a.objectPath_key]
    obtain ⟨name, results, hevent, horigin⟩ := Step.mem_artifacts.mp ha
    obtain rfl : e = .afterSpec name results := hevent
    -- an upload stems from a test's screenshot or from the video of the spec
    rcases horigin with ⟨test, spec, id, hrow, ha⟩ | ⟨spec, hended, ha⟩
    · obtain ⟨hfailed, shot, hshot, htest, rfl⟩ := SpecResults.mem_screenshotArtifacts.mp ha
      have hended := endedSpec?_of_mem_testRows hrow
      exact .screenshot ⟨⟨name, rfl⟩, hended⟩ hrow hfailed hshot htest hfile
    · obtain ⟨hfailed, path, hvideo, rfl⟩ := SpecResults.mem_videoArtifacts.mp ha
      exact .video ⟨⟨name, rfl⟩, hended⟩ hfailed hvideo hfile
  · intro h
    cases h with
    | @screenshot results spec test id shot hended hrow hfailed hshot htest hfile =>
      obtain ⟨⟨name, hevent⟩, hended⟩ := hended
      refine ⟨(Artifact.screenshot shot.path id spec shot.attemptIndex).upload,
        List.mem_map_of_mem (Step.mem_artifacts.mpr
          ⟨name, results, hevent, .inl ⟨test, spec, id, hrow, ?_⟩⟩), hfile,
        (Artifact.objectPath_key (.screenshot ..)).symm⟩
      exact SpecResults.mem_screenshotArtifacts.mpr ⟨hfailed, shot, hshot, htest, rfl⟩
    | @video results spec path hended hfailed hvideo hfile =>
      obtain ⟨⟨name, hevent⟩, hended⟩ := hended
      refine ⟨(Artifact.video path spec).upload, List.mem_map_of_mem (Step.mem_artifacts.mpr
        ⟨name, results, hevent, .inr ⟨spec, hended, ?_⟩⟩), hfile,
        (Artifact.objectPath_key (.video ..)).symm⟩
      exact SpecResults.mem_videoArtifacts.mpr ⟨hfailed, path, hvideo, rfl⟩

/-- Rows that were made are found in all later tables. -/
theorem Step.RecordedUnder.hasRows {e : Event} {r : RunState} {tables later : Tables}
    {results : SpecResults} {spec : SpecId}
    (h : (stepOf Tables.store identity now e r tables).RecordedUnder results spec)
    (hlater : (recordEvent Tables.store identity now e r tables).store.LeadsTo later) :
    (stepOf Tables.store identity now e r tables).HasRows later results spec := by
  obtain ⟨⟨name, hevent⟩, hended⟩ := h
  obtain rfl : e = .afterSpec name results := hevent
  -- the spec was completed and the tests were made, and no later call takes a row away
  constructor
  · obtain ⟨summary, hcall⟩ := Step.exists_call_of_endedSpec? hended
    obtain ⟨t, t', -, -, hserved, hend⟩ := Tables.store_backedBy.served_of_mem_calls hcall
    have hextends := hserved.extends.trans (Tables.LeadsTo.trans hend hlater).extends
    cases hserved with
    | specCompleted hspec =>
      obtain ⟨row, hrow, hid⟩ := List.any_eq_true.mp hspec
      obtain ⟨row', hrow', hlasting⟩ := hextends.exists_spec hrow
      exact ⟨row', hrow', (congrArg Prod.fst hlasting).trans (eq_of_beq hid)⟩
  · exact map_fst_testRows Tables.store identity hended
  · intro test spec' id hrow
    obtain ⟨hspec, hcall⟩ := call_of_mem_testRows Tables.store identity hrow
    obtain rfl : spec' = spec :=
      Option.some.inj (hspec.symm.trans (spec_of_endedSpec? Tables.store identity hended))
    obtain ⟨t, t', -, -, hserved, hend⟩ := Tables.store_backedBy.served_of_mem_calls hcall
    have hextends := (Tables.LeadsTo.trans hend hlater).extends
    exact ⟨rfl, hextends.tests.mem hserved.test.2.2⟩

/-! ## Dry runs -/

variable {around : Surroundings} {env : Environment} {config : Config} {source : EventSource}

/-- A replay of an entry that returns its counts has read the entry, and its stream to the end. -/
theorem replayEntry_eq_ok {entry : Entry} {tables : Tables} {summary : ReplaySummary}
    (h : (replayEntry Tables.store identity now entry tables).result = .ok summary) :
    ∃ stream, entry.contents = .ok stream ∧
      (replay Tables.store identity now stream .initial tables).1 = .ok summary := by
  rw [replayEntry] at h
  cases hcontents : entry.contents with
  | error cause =>
    rw [hcontents] at h
    cases h
  | ok stream =>
    rw [hcontents] at h
    refine ⟨stream, rfl, ?_⟩
    cases hresult : (replay Tables.store identity now stream .initial tables).1 with
    | error fault =>
      simp only [hresult] at h
      cases h
    | ok summary' =>
      simp only [hresult] at h
      cases h
      rfl

/-- A dry run returns a report if everything before it succeeds: reading the environment, opening
and reading the stream, and waiting for the uploads. -/
theorem dryRun_eq_ok_iff {report : DryRunReport} :
    (dryRun around env config source).result = .ok report ↔
      ∃ entry stream delivery, Identity.ofEnvironment env = .ok report.identity ∧
        source.openOn around.disk = .ok entry ∧ entry.contents = .ok stream ∧
        let p := replay Tables.store report.identity around.now stream .initial .empty
        p.1 = .ok report.summary ∧ p.2.state = report.state ∧ p.2.store = report.tables ∧
          deliverWithin around.disk around.clock config.artifacts.uploadGraceSecs p.2.uploads =
            .ok delivery ∧
          delivery.bucket.keys = report.artifacts := by
  rw [dryRun]
  constructor
  · intro h
    split at h
    · cases h
    · rename_i identity hidentity
      split at h
      · cases h
      · rename_i entry hopen
        dsimp only at h
        split at h
        · cases h
        · rename_i summary hsummary
          -- past this point nothing can fail but the clock
          obtain ⟨stream, hcontents, hresult⟩ := replayEntry_eq_ok hsummary
          split at h
          · cases h
          · rename_i delivery hdelivery
            cases h
            simp only [replayEntry, hcontents] at hdelivery ⊢
            exact ⟨entry, stream, delivery, hidentity, hopen, hcontents, hresult, rfl, rfl,
              hdelivery, rfl⟩
  · rintro ⟨entry, stream, delivery, hidentity, hopen, hcontents, hresult, hstate, htables,
      hdelivery, hkeys⟩
    simp only [hidentity, hopen, replayEntry, hcontents, hresult, Except.mapError, hdelivery,
      hstate, htables, hkeys]

/-- The steps of a dry run of a stream. -/
def dryRunSteps (identity : Identity) (now : Timestamp) (stream : List UInt8) : List Step :=
  (Course.start RunState.initial Tables.empty).steps Tables.store identity now (dispatched stream)

section

variable (identity : Identity) (now : Timestamp) (stream : List UInt8)

/-- What a replay into memory has uploaded are the uploads of its steps. -/
theorem uploads_replay :
    (replay Tables.store identity now stream .initial .empty).2.uploads =
      (dryRunSteps identity now stream).flatMap Step.uploads := by
  have hcourse := replay_course Tables.store identity now stream .initial .empty
  exact (congrArg Course.uploads hcourse).trans (Course.uploads_recordAll ..)

variable {identity now stream}

/-- The uploads of a replay with files to read are what its steps yield. -/
theorem exists_yields_iff {disk : Disk} {k : String} :
    (∃ u ∈ (dryRunSteps identity now stream).flatMap Step.uploads,
        disk.Readable u.path ∧ k = objectPath u.key) ↔
      ∃ t ∈ dryRunSteps identity now stream, t.Yields disk k := by
  constructor
  · rintro ⟨u, hu, hfile⟩
    obtain ⟨t, ht, hu⟩ := List.mem_flatMap.mp hu
    obtain ⟨before, e, after, -, rfl⟩ := Course.exists_of_mem_steps ht
    exact ⟨_, ht, yields_iff.mp ⟨u, hu, hfile⟩⟩
  · rintro ⟨t, ht, hyields⟩
    obtain ⟨before, e, after, -, rfl⟩ := Course.exists_of_mem_steps ht
    obtain ⟨u, hu, hfile⟩ := yields_iff.mpr hyields
    exact ⟨u, List.mem_flatMap.mpr ⟨_, ht, hu⟩, hfile⟩

/-- The rows of a spec that has ended are in the tables that a replay leaves behind. -/
theorem hasRows_replay {t : Step} {results : SpecResults} {spec : SpecId}
    (ht : t ∈ dryRunSteps identity now stream) (h : t.RecordedUnder results spec) :
    t.HasRows (replay Tables.store identity now stream .initial .empty).2.store results spec := by
  have htables := congrArg Course.store
    (replay_course Tables.store identity now stream .initial .empty)
  obtain ⟨before, e, after, hevents, rfl⟩ := Course.exists_of_mem_steps ht
  refine h.hasRows ?_
  show Tables.LeadsTo _ (Replay.course _).store
  rw [htables, hevents, Course.recordAll_append]
  exact Course.leadsTo_recordAll Tables.store_backedBy after
    (((Course.start RunState.initial Tables.empty).recordAll Tables.store identity now
      before).record Tables.store identity now e)

end

/-- **The artifacts of a dry run are those that its stream and the files call for**: in strictly
increasing order, the keys that the ends of specs yield, each under the rows that are in the tables
of the report. Which task of the queue finishes when makes no difference, and which files are there
makes one to the artifacts only. -/
theorem dryRun_artifacts (around : Surroundings) (env : Environment) (config : Config)
    (source : EventSource) {report : DryRunReport}
    (h : (dryRun around env config source).result = .ok report) :
    ∃ entry stream, source.openOn around.disk = .ok entry ∧ entry.contents = .ok stream ∧
      Identity.ofEnvironment env = .ok report.identity ∧
      let made := dryRunSteps report.identity around.now stream
      made.map Step.event = dispatched stream ∧
      (∀ t ∈ made, ∀ results spec, t.RecordedUnder results spec →
        t.HasRows report.tables results spec) ∧
      report.artifacts.Pairwise (· < ·) ∧
      (∀ k, k ∈ report.artifacts ↔ ∃ t ∈ made, t.Yields around.disk k) ∧
      (∀ schedule, Settles around.disk (made.flatMap Step.uploads) schedule →
        (Queue.empty.run around.disk schedule .none).2.bucket.keys = report.artifacts) ∧
      ∀ disk, source.openOn disk = source.openOn around.disk →
        ∃ report', (dryRun { around with disk } env config source).result = .ok report' ∧
          report'.tables = report.tables ∧ report'.state = report.state ∧
          report'.summary = report.summary := by
  obtain ⟨entry, stream, delivery, hidentity, hopen, hcontents, hresult, hstate, htables,
    hdelivery, hkeys⟩ := dryRun_eq_ok_iff.mp h
  have huploads := uploads_replay report.identity around.now stream
  have hartifacts : report.artifacts =
      (runUploads around.disk ((dryRunSteps report.identity around.now stream).flatMap Step.uploads)
        .none).bucket.keys := by
    rw [← hkeys, deliverWithin_eq_ok hdelivery, huploads]
  refine ⟨entry, stream, hopen, hcontents, hidentity, Course.map_event_steps .., ?_, ?_, ?_, ?_, ?_⟩
  · intro t ht results spec hended
    rw [← htables]
    exact hasRows_replay ht hended
  · rw [hartifacts]
    exact sorted_runUploads List.Pairwise.nil
  · intro k
    rw [hartifacts, mem_keys_runUploads, ← exists_yields_iff]
    exact or_iff_left List.not_mem_nil
  · intro schedule hsettles
    rw [hartifacts]
    exact hsettles.keys_eq
  · intro disk hdisk
    obtain ⟨delivery', hdelivery'⟩ := exists_deliverWithin_eq_ok hdelivery disk
    refine ⟨{ report with artifacts := delivery'.bucket.keys }, ?_, rfl, rfl, rfl⟩
    exact dryRun_eq_ok_iff.mpr ⟨entry, stream, delivery', hidentity, hdisk.trans hopen, hcontents,
      hresult, hstate, htables, hdelivery', rfl⟩

/-- An environment with all that an identity needs. -/
def sampleEnvironment : Environment :=
  [("RUNID", "42"), ("ATTEMPT_NUMBER", "1"), ("REPOSITORY", "acme/builder"),
    ("COMMITTER", "ci-bot"), ("TAG", "push"), ("BRANCH", "release"), ("THIS_RUNNER", "shard-a")]

/-- A stream with a spec of two tests, of which the first one failed before it passed and the second
one is pending. There are two screenshots of the first test, one of the second, and a video. -/
def retriedSpec : List UInt8 :=
  ("[\"before:run\",[[\"chrome\"]]]\n[\"before:spec\",[\"a.ts\"]]\n" ++
    "[\"after:spec\",[\"a.ts\"],[[2,1,0,1],[[\"r1\",[\"A\"],\"passed\"," ++
    "[\x7b\"state\":\"failed\"\x7d,\x7b\"state\":\"passed\"\x7d]]," ++
    "[\"r2\",[\"B\"],\"pending\",[\x7b\"state\":\"pending\"\x7d]]]," ++
    "[[\"a.png\",\"r1\",0],[\"lost.png\",\"r1\",1],[\"b.png\",\"r2\",0]],\"a.mp4\"]]\n"
    ).toUTF8.data.toList

/-- A disk with all of its files but `lost.png`. -/
def withoutLost : Surroundings where
  disk path := if path ∈ ["a.png", "b.png", "a.mp4"] then .ok (.file [1]) else .error .notFound
  now := ⟨0, 0⟩
  clock := ⟨0, 0⟩

/-- The video and the one screenshot of the first test that is there are uploaded; a disk without
any files leads to the same tables. -/
theorem dryRun_artifacts_retriedSpec :
    ∃ report, (dryRun withoutLost sampleEnvironment .default (.stream retriedSpec)).result =
        .ok report ∧
      report.artifacts = ["3", "4_3_1"] ∧
      (∀ k, k ∈ report.artifacts ↔
        ∃ t ∈ dryRunSteps report.identity withoutLost.now retriedSpec,
          t.Yields withoutLost.disk k) ∧
      ∃ report', (dryRun { withoutLost with disk := fun _ => .error .notFound } sampleEnvironment
          .default (.stream retriedSpec)).result = .ok report' ∧
        report'.tables = report.tables := by
  have hartifacts : (dryRun withoutLost sampleEnvironment .default
      (.stream retriedSpec)).result.toOption.map (·.artifacts) = some ["3", "4_3_1"] := by
    decide +kernel
  cases hresult : (dryRun withoutLost sampleEnvironment .default (.stream retriedSpec)).result with
  | error cause =>
    rw [hresult] at hartifacts
    cases hartifacts
  | ok report =>
    rw [hresult] at hartifacts
    obtain ⟨entry, stream, hopen, hcontents, -, -, -, -, hkeys, -, hdisk⟩ :=
      dryRun_artifacts withoutLost sampleEnvironment .default (.stream retriedSpec) hresult
    -- the stream is not a file, so it is the same on every disk
    obtain rfl : Entry.file retriedSpec = entry := Except.ok.inj hopen
    obtain rfl : retriedSpec = stream := Except.ok.inj hcontents
    obtain ⟨report', hresult', htables, -, -⟩ := hdisk (fun _ => .error .notFound) rfl
    exact ⟨report, rfl, Option.some.inj hartifacts, hkeys, report', hresult', htables⟩

end RunJournal
