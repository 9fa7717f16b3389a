import RunJournal.Proofs.Recorder.Answers
import RunJournal.Proofs.Recorder.Artifacts
import RunJournal.Store.Faulty
import RunJournal.Store.Tables

/-!
# Ends of specs and of runs

The two events that write something off go about failures in opposite ways.

- The end of a spec is a chain: its summary, then its tests one by one. A call that fails is the
  last one (`UpToFailure`). What was submitted for upload before it stays submitted; the video,
  which comes after all tests, is not (`afterSpec_upToFailure`).
- The end of a run is three steps of which none waits for another: the shard, the attempt and the
  store itself. Each is tried, unless its row is missing, and whatever goes wrong is noted step by
  step (`afterRun_closesOut`).

Both are said of every state of the recorder and of every store.
-/

namespace RunJournal

/-- Why a call failed, if it did. -/
def Call.cause? (c : Call) : Option StoreError :=
  match c.answer with
  | .ok _ => none
  | .error cause => some cause

theorem Call.cause?_ok (q : Request) (answer : q.Answer) :
    Call.cause? ⟨q, .ok answer⟩ = none := rfl

theorem Call.cause?_error (q : Request) (cause : StoreError) :
    Call.cause? ⟨q, .error cause⟩ ≠ none := Option.some_ne_none cause

/-! ## The end of a spec -/

/-- Calls for the requests of a plan, one after the other, of which a call that fails is the
last. -/
structure UpToFailure (plan : List Request) (calls : List Call) : Prop where
  requests : calls.map Call.request <+: plan
  succeeded : ∀ c ∈ calls.dropLast, c.cause? = none
  /-- The plan is only left at a failure. -/
  complete : calls.map Call.request = plan ∨ ∃ c ∈ calls.getLast?, c.cause? ≠ none

namespace UpToFailure

variable {plan : List Request} {calls : List Call} {c : Call}

theorem nil : UpToFailure [] [] :=
  ⟨List.nil_prefix, fun _ hc => absurd hc List.not_mem_nil, .inl rfl⟩

theorem failed (hc : c.cause? ≠ none) (plan : List Request) :
    UpToFailure (c.request :: plan) [c] := by
  refine ⟨List.cons_prefix_cons.mpr ⟨rfl, List.nil_prefix⟩, ?_, .inr ⟨c, rfl, hc⟩⟩
  exact fun c' hc' => absurd hc' List.not_mem_nil

/-- A call that succeeds comes before the others. -/
theorem cons (h : UpToFailure plan calls) (hc : c.cause? = none) :
    UpToFailure (c.request :: plan) (c :: calls) := by
  refine ⟨List.cons_prefix_cons.mpr ⟨rfl, h.requests⟩, ?_, ?_⟩
  · intro c' hc'
    cases calls with
    | nil => exact absurd hc' List.not_mem_nil
    | cons first rest =>
      rcases List.mem_cons.mp hc' with rfl | hc'
      · exact hc
      · exact h.succeeded c' hc'
  · rcases h.complete with hplan | ⟨last, hlast, hfailed⟩
    · exact .inl (congrArg _ hplan)
    · refine .inr ⟨last, ?_, hfailed⟩
      rw [List.getLast?_cons, Option.mem_def.mp hlast]
      rfl

end UpToFailure

/-- What the end of a spec asks for if nothing fails. -/
def SpecResults.requests (results : SpecResults) (spec : SpecId) : List Request :=
  .completeSpec spec (.ofStats results.stats) :: results.tests.map fun test => .insertTest
    { name := test.displayName
      specId := spec
      status := test.state
      retries := (min test.attempts.length maxRetries : Nat)
      retryData := test.history }

/-- A spec whose tests are all made has a video to be uploaded if any attempt failed. -/
theorem SpecResults.closingUploads_eq (results : SpecResults) (spec : SpecId)
    (result : Except HookError Unit) :
    results.closingUploads spec result =
      if outcomeOf result = .recorded ∧ ∃ test ∈ results.tests, test.hasFailedAttempt = true then
        results.video.toList.map fun path => ⟨.video, path, videoKey spec⟩
      else [] := by
  cases result with
  | error cause => rfl
  | ok _ =>
    have hfailed : results.hasFailedAttempt = true ↔ outcomeOf (.ok ()) = .recorded ∧
        ∃ test ∈ results.tests, test.hasFailedAttempt = true :=
      List.any_eq_true.trans (and_iff_right rfl).symm
    rw [closingUploads, videoUploads]
    cases results.video with
    | none => exact (ite_self _).symm
    | some path => exact if_congr hfailed rfl rfl

section Tests

variable {results : SpecResults} {spec : SpecId} {tests : List TestResult}
  {result : Except HookError Unit} {blocks : List (Call × List Upload)}

/-- The tests of a spec are a chain of calls. -/
theorem TestsMade.upToFailure (h : TestsMade results spec tests result blocks) :
    UpToFailure (tests.map fun test => .insertTest (test.row spec)) (blocks.map Prod.fst) := by
  induction h with
  | done => exact .nil
  | refused test rest cause => exact .failed (Call.cause?_error _ cause) _
  | @made test rest id result blocks hrest ih =>
    exact ih.cons (Call.cause?_ok (.insertTest (test.row spec)) id)

/-- They come to their end exactly if no call fails. -/
theorem TestsMade.recorded_iff (h : TestsMade results spec tests result blocks) :
    outcomeOf result = .recorded ↔ ∀ c ∈ blocks.map Prod.fst, c.cause? = none := by
  induction h with
  | done => exact iff_of_true rfl fun _ hc => absurd hc List.not_mem_nil
  | refused test rest cause =>
    refine iff_of_false (fun h => Outcome.noConfusion h) fun h => ?_
    exact Call.cause?_error _ cause (h _ List.mem_cons_self)
  | @made test rest id result blocks hrest ih =>
    rw [List.map_cons, List.forall_mem_cons, ih]
    exact (and_iff_right (Call.cause?_ok (.insertTest (test.row spec)) id)).symm

/-- What is uploaded for tests are the screenshots of those that got a row. -/
theorem TestsMade.flatMap_uploads (h : TestsMade results spec tests result blocks) :
    blocks.flatMap Prod.snd =
      (tests.zip ((blocks.map Prod.fst).filterMap Call.test?)).flatMap fun (test, _, id) =>
        results.screenshotUploads test id spec := by
  rw [h.uploads_eq, List.map_flatMap]
  refine List.flatMap_congr fun row hrow => ?_
  obtain ⟨rfl, -⟩ := h.mem_of_mem_zip hrow
  exact (results.screenshotUploads_eq row.1 row.2.2 row.2.1).symm

end Tests

variable {σ : Type} (store : Store σ) (identity : Identity)

section Specs

variable (now : Timestamp) (name : String) (results : SpecResults) {r : RunState} (s : σ)
  {current : CurrentSpec}

theorem state_afterSpec (r : RunState) : (afterSpec store name results r s).state = r := by
  rw [afterSpec]
  split
  · rfl
  · simp only
    split <;> rfl

/-- The calls of the end of a spec, and how it ends. -/
theorem upToFailure_afterSpec (hcurrent : r.spec = some current) :
    let t := stepOf store identity now (.afterSpec name results) r s
    UpToFailure (results.requests current.id) t.calls ∧
      (t.outcome = .recorded ↔ ∀ c ∈ t.calls, c.cause? = none) := by
  intro t
  rcases stepOf_afterSpec_of_spec store identity now name results s hcurrent with
    ⟨cause, houtcome, -, hcalls⟩ | ⟨result, blocks, hmade, houtcome, -, hcalls⟩
  · rw [hcalls, houtcome]
    refine ⟨.failed (Call.cause?_error _ cause) _, iff_of_false (fun h => Outcome.noConfusion h) ?_⟩
    exact fun h => Call.cause?_error _ cause (h _ List.mem_cons_self)
  · have hcompleted := Call.cause?_ok (.completeSpec current.id (.ofStats results.stats)) ()
    rw [hcalls, houtcome, List.forall_mem_cons, hmade.recorded_iff]
    exact ⟨hmade.upToFailure.cons hcompleted, (and_iff_right hcompleted).symm⟩

/-- The uploads of the end of a spec. -/
theorem uploads_afterSpec (hcurrent : r.spec = some current) :
    let t := stepOf store identity now (.afterSpec name results) r s
    t.uploads =
      ((t.testRows results).flatMap fun (test, _, id) =>
        results.screenshotUploads test id current.id) ++
      if t.outcome = .recorded ∧ ∃ test ∈ results.tests, test.hasFailedAttempt = true then
        results.video.toList.map fun path => ⟨.video, path, videoKey current.id⟩
      else [] := by
  intro t
  rcases stepOf_afterSpec store identity now name results r s with
    ⟨houtcome, hrows, huploads⟩ |
      ⟨current', result, blocks, hcurrent', hmade, houtcome, -, hrows, huploads⟩
  · rw [huploads, hrows, houtcome]
    rfl
  · rw [hcurrent'] at hcurrent
    cases hcurrent
    rw [huploads, hmade.flatMap_uploads, results.closingUploads_eq, hrows, houtcome]

end Specs

/-- **The end of a spec does its work up to the first failure.** It changes nothing about the
recorder. Without a spec it asks for nothing and uploads nothing. Otherwise it asks its store for
what the results come to, up to and including the first call that fails, and is recorded exactly if
none does. Uploaded are the screenshots of each test that got a row and has a failed attempt, in
order, and after them the video, if there is one, no call failed and some attempt did. -/
theorem afterSpec_upToFailure (now : Timestamp) (name : String) (results : SpecResults)
    (r : RunState) (s : σ) :
    let t := stepOf store identity now (.afterSpec name results) r s
    let report := recordEvent store identity now (.afterSpec name results) r s
    report.state = r ∧
    (t.calls = store.calls (t.calls.map Call.request) s ∧
      report.store = store.after (t.calls.map Call.request) s) ∧
    (r.spec = none → t.calls = [] ∧ t.uploads = [] ∧ t.outcome = .failed) ∧
    ∀ current, r.spec = some current →
      UpToFailure (results.requests current.id) t.calls ∧
      (t.outcome = .recorded ↔ ∀ c ∈ t.calls, c.cause? = none) ∧
      t.uploads =
        ((t.testRows results).flatMap fun (test, _, id) =>
          if test.hasFailedAttempt then
            (results.screenshots.filter fun shot => shot.testId == test.testId).map fun shot =>
              ⟨.screenshot, shot.path, screenshotKey id current.id shot.attemptIndex⟩
          else []) ++
        if (∀ c ∈ t.calls, c.cause? = none) ∧
            ∃ test ∈ results.tests, test.hasFailedAttempt = true then
          results.video.toList.map fun path => ⟨.video, path, videoKey current.id⟩
        else [] := by
  intro t report
  refine ⟨state_afterSpec store name results s r,
    stepOf_answered store identity now (.afterSpec name results) r s, fun hnone => ?_,
    fun current hcurrent => ?_⟩
  · obtain ⟨houtcome, huploads, hcalls⟩ :=
      stepOf_afterSpec_of_none store identity now name results s hnone
    exact ⟨hcalls, huploads, houtcome⟩
  · obtain ⟨hcalls, hrecorded⟩ :=
      upToFailure_afterSpec store identity now name results s hcurrent
    refine ⟨hcalls, hrecorded, ?_⟩
    refine (uploads_afterSpec store identity now name results s hcurrent).trans ?_
    exact congrArg _ (if_congr (and_congr_left' hrecorded) rfl rfl)

/-- Three tests, of which the first and the last have a failed attempt. -/
def flakyTests : SpecResults :=
  ⟨⟨3, 2, 1, 0, 0⟩,
    [⟨"r1", ["A", "b"], "passed", [⟨"failed", []⟩, ⟨"passed", []⟩]⟩,
      ⟨"r2", ["A", "c"], "passed", [⟨"passed", []⟩]⟩,
      ⟨"r3", ["A", "d"], "failed", [⟨"failed", []⟩]⟩],
    [⟨"b.png", "r1", 1⟩, ⟨"c.png", "r3", 0⟩, ⟨"a.png", "r1", 0⟩], some "a.mp4"⟩

/-- A store in memory that refuses the second test. -/
def refusesSecondTest : Store (CallCounts × Tables) :=
  Store.withFailures (.ofList [⟨.insertTest, some 2, .unavailable⟩]) Tables.store

/-- The second test is refused: both screenshots of the first one are kept, in the order in which
they are reported; the third is not asked for, and the video is not uploaded. -/
theorem afterSpec_upToFailure_flakyTests :
    let r : RunState := { RunState.initial with spec := some ⟨"a.ts", ⟨3⟩⟩ }
    let tables := { Tables.empty with specs := [⟨⟨3⟩, "a.ts", ⟨2⟩, none⟩], lastId := 3 }
    let s := (CallCounts.none, tables)
    let t := stepOf refusesSecondTest .sample ⟨0, 0⟩ (.afterSpec "a.ts" flakyTests) r s
    UpToFailure (flakyTests.requests ⟨3⟩) t.calls ∧ t.calls.length = 3 ∧
      t.uploads = [⟨.screenshot, "b.png", "4_3_2"⟩, ⟨.screenshot, "a.png", "4_3_1"⟩] ∧
      t.outcome ≠ .recorded := by
  intro r tables s t
  obtain ⟨-, -, -, hspec⟩ :=
    afterSpec_upToFailure refusesSecondTest .sample ⟨0, 0⟩ "a.ts" flakyTests r s
  obtain ⟨hcalls, hrecorded, -⟩ := hspec ⟨"a.ts", ⟨3⟩⟩ rfl
  have hrefused : ¬ ∀ c ∈ t.calls, c.cause? = none := by decide +kernel
  exact ⟨hcalls, by decide +kernel, by decide +kernel, fun h => hrefused (hrecorded.mp h)⟩

/-! ## The end of a run -/

/-- Why the calls of a kind failed. -/
def Step.failures (t : Step) (kind : RequestKind) : List HookError :=
  ((t.calls.filter fun c => c.request.kind = kind).filterMap Call.cause?).map .store

section Runs

variable {α : Type} {missing : HookError} {q : α → Request} {id : Option α}
  {result : Except HookError Unit} {calls : List Call}

theorem Performed.map_request (h : Performed missing q id result calls) :
    calls.map Call.request = id.toList.map q := by
  cases h <;> rfl

/-- A step about a row is done if the row is there and no call fails. -/
theorem Performed.eq_ok_iff (h : Performed missing q id result calls) :
    result = .ok () ↔ id ≠ none ∧ ∀ c ∈ calls, c.cause? = none := by
  cases h with
  | missing => simp
  | failed id cause => simp [Call.cause?]
  | done id answer => simp [Call.cause?]

/-- What goes wrong with a step about a row. -/
theorem Performed.failureNotice_eq (h : Performed missing q id result calls) :
    failureNotice .afterRun result =
      (if id.isNone then [missing] else (calls.filterMap Call.cause?).map .store).map
        (.hookFailed .afterRun) := by
  cases h <;> rfl

/-- The calls of a step about a row are of one kind. -/
theorem Performed.filter_kind (h : Performed missing q id result calls) {kind : RequestKind}
    (hkind : ∀ a, (q a).kind = kind) (kind' : RequestKind) :
    (calls.filter fun c => c.request.kind = kind') = if kind = kind' then calls else [] := by
  cases h with
  | missing => exact (ite_self _).symm
  | failed id cause => simp [List.filter_singleton, hkind]
  | done id answer => simp [List.filter_singleton, hkind]

end Runs

/-- The end of a run is recorded exactly if each of its steps is done. -/
theorem closing_recorded_iff {matrix attempt close : Except HookError Unit} :
    (if (closingNotices matrix attempt close).isEmpty then Outcome.recorded else .failed) =
      .recorded ↔ matrix = .ok () ∧ attempt = .ok () ∧ close = .ok () := by
  constructor
  · intro h
    have hdone : ∀ result ∈ [matrix, attempt, close], result = .ok () := by
      intro result hresult
      cases result with
      | ok _ => rfl
      | error cause =>
        rw [(closing_failed hresult).2] at h
        cases h
    simpa only [List.forall_mem_cons, List.not_mem_nil, IsEmpty.forall_iff, implies_true, and_true]
      using hdone
  · rintro ⟨rfl, rfl, rfl⟩
    rfl

/-- What the end of a run comes to, step by step. -/
theorem stepOf_afterRun (now : Timestamp) (details : Option Json) (r : RunState) (s : σ) :
    let t := stepOf store identity now (.afterRun details) r s
    ∃ matrix attempt close calls₁ calls₂ calls₃,
      Performed .missingMatrix .finishMatrix r.matrixId matrix calls₁ ∧
      Performed .missingAttempt (.finishAttempt · now) r.attemptId attempt calls₂ ∧
      Performed .missingAttempt (fun _ : Unit => .close) (some ()) close calls₃ ∧
      (t.outcome = .recorded ↔ matrix = .ok () ∧ attempt = .ok () ∧ close = .ok ()) ∧
      t.calls = calls₁ ++ calls₂ ++ calls₃ ∧ t.uploads = [] ∧
      t.notices = closingNotices matrix attempt close := by
  obtain ⟨matrix, attempt, close, calls₁, calls₂, calls₃, s', hmatrix, hattempt, hclose, hreport⟩ :=
    afterRun_logged store now r s
  rw [(stepOf_of_logged store identity now (.afterRun details) hreport).1]
  exact ⟨matrix, attempt, close, calls₁, calls₂, calls₃, hmatrix, hattempt, hclose,
    closing_recorded_iff, rfl, rfl, rfl⟩

/-- What goes wrong at the end of a run is noted in the order of its steps. -/
theorem notices_afterRun (now : Timestamp) (details : Option Json) (r : RunState) (s : σ) :
    let t := stepOf store identity now (.afterRun details) r s
    t.notices =
      ((if r.matrixId.isNone then [.missingMatrix] else t.failures .finishMatrix) ++
        (if r.attemptId.isNone then [.missingAttempt] else t.failures .finishAttempt) ++
        t.failures .close).map (.hookFailed .afterRun) := by
  intro t
  obtain ⟨matrix, attempt, close, calls₁, calls₂, calls₃, hmatrix, hattempt, hclose, -, hcalls, -,
    hnotices⟩ := stepOf_afterRun store identity now details r s
  -- the calls of the three steps are told apart by their kinds
  have hfailures (kind : RequestKind) : t.failures kind =
      (((if .finishMatrix = kind then calls₁ else []) ++
        (if .finishAttempt = kind then calls₂ else []) ++
        (if .close = kind then calls₃ else [])).filterMap Call.cause?).map .store := by
    rw [Step.failures, hcalls, List.filter_append, List.filter_append,
      hmatrix.filter_kind (fun _ => rfl), hattempt.filter_kind (fun _ => rfl),
      hclose.filter_kind (fun _ => rfl)]
    rfl
  rw [hnotices, hfailures, hfailures, hfailures]
  simp [closingNotices, hmatrix.failureNotice_eq, hattempt.failureNotice_eq,
    hclose.failureNotice_eq]

/-- **The end of a run closes out step by step, and last of all the store.** It asks for the end of
the shard exactly if the recorder has its row, then for that of the attempt exactly if it has that
row, and then closes the store once, whatever the answers before are. It is recorded exactly if both
rows are there and no call failed; for each step that has no row or fails there is one notice, an
error that names the cause, and no other. Of the recorder only the mark of the end changes. -/
theorem afterRun_closesOut (now : Timestamp) (details : Option Json) (r : RunState) (s : σ) :
    let t := stepOf store identity now (.afterRun details) r s
    let report := recordEvent store identity now (.afterRun details) r s
    t.calls.map Call.request =
      r.matrixId.toList.map .finishMatrix ++ r.attemptId.toList.map (.finishAttempt · now) ++
        [.close] ∧
    (t.calls = store.calls (t.calls.map Call.request) s ∧
      report.store = store.after (t.calls.map Call.request) s) ∧
    (t.outcome = .recorded ↔
      r.matrixId ≠ none ∧ r.attemptId ≠ none ∧ ∀ c ∈ t.calls, c.cause? = none) ∧
    t.notices =
      ((if r.matrixId.isNone then [.missingMatrix] else t.failures .finishMatrix) ++
        (if r.attemptId.isNone then [.missingAttempt] else t.failures .finishAttempt) ++
        t.failures .close).map (.hookFailed .afterRun) ∧
    (∀ n ∈ t.notices, n.level = .error ∧ n.message = "run bookkeeping failed") ∧
    report.state = { r with finished := true } ∧ t.uploads = [] := by
  intro t report
  have hnotices := notices_afterRun store identity now details r s
  obtain ⟨matrix, attempt, close, calls₁, calls₂, calls₃, hmatrix, hattempt, hclose, houtcome,
    hcalls, huploads, -⟩ := stepOf_afterRun store identity now details r s
  refine ⟨?_, stepOf_answered store identity now (.afterRun details) r s, ?_, hnotices, ?_, rfl,
    huploads⟩
  -- a step without its id makes no call
  · rw [hcalls, List.map_append, List.map_append, hmatrix.map_request, hattempt.map_request,
      hclose.map_request]
    rfl
  · rw [houtcome, hmatrix.eq_ok_iff, hattempt.eq_ok_iff, hclose.eq_ok_iff, hcalls,
      List.forall_mem_append, List.forall_mem_append]
    constructor
    · rintro ⟨⟨hid, h₁⟩, ⟨hid', h₂⟩, -, h₃⟩
      exact ⟨hid, hid', ⟨h₁, h₂⟩, h₃⟩
    · rintro ⟨hid, hid', ⟨h₁, h₂⟩, h₃⟩
      exact ⟨⟨hid, h₁⟩, ⟨hid', h₂⟩, Option.some_ne_none (), h₃⟩
  · intro n hn
    rw [hnotices] at hn
    obtain ⟨cause, -, rfl⟩ := List.mem_map.mp hn
    exact ⟨rfl, rfl⟩

end RunJournal
