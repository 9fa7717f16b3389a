import RunJournal.Proofs.Artifact.ObjectPath
import RunJournal.Proofs.Recorder.Provenance
import RunJournal.Proofs.Text.Digits

/-!
# Artifacts

An upload holds the identifiers that it belongs to only in the text of its key. An `Artifact` is an
upload before that text is written. A screenshot shows one attempt of a test, and a video shows a
spec; `Artifact.key_eq_iff` says that artifacts have the same key exactly if they show the same for
the same spec.

What artifacts a step submits can be read off its event and its calls. `Step.testRows` are the tests
with the rows that they got, `Step.endedSpec?` is the spec that ended with all of its tests, and
`Step.artifacts` are the screenshots of the former and the video of the latter. Whatever a store
answers, these are the uploads of the step (`uploads_stepOf`), and they belong to the spec that is
remembered and to tests that got their rows in the step (`origin_of_mem_artifacts`).
-/

namespace RunJournal

/-! ## Keys -/

/-- The key of a screenshot is three numbers with an underscore between each two. -/
theorem toList_screenshotKey (test : TestId) (spec : SpecId) (attemptIndex : Nat) :
    (screenshotKey test spec attemptIndex).toList =
      Text.integerDigits test.value ++ '_' :: (Text.integerDigits spec.value ++
        '_' :: Text.digits (attemptIndex + 1)) := by
  simp [screenshotKey, Text.intText, Text.natText]

theorem toList_videoKey (spec : SpecId) :
    (videoKey spec).toList = Text.integerDigits spec.value := by
  rw [videoKey, Text.intText, String.toList_ofList]

theorem isAlphanum_of_isDigit {c : Char} (h : c.isDigit = true) : c.isAlphanum = true := by
  rw [Char.isAlphanum, h, Bool.or_true]

theorem plain_of_mem_integerDigits {i : Int} {c : Char} (h : c ∈ Text.integerDigits i) :
    c.isAlphanum = true ∨ c = '_' ∨ c = '-' :=
  (Text.isDigit_or_eq_of_mem_integerDigits h).imp isAlphanum_of_isDigit .inr

/-- The mark between the parts of a key is in none of them. -/
theorem underscore_notMem_integerDigits (i : Int) : '_' ∉ Text.integerDigits i :=
  Text.notMem_integerDigits (by decide) (by decide) i

/-- What stands before the first mark is told from what stands after it. -/
theorem split_eq_of_notMem {mark : Char} {xs xs' rest rest' : List Char} (hxs : mark ∉ xs)
    (hxs' : mark ∉ xs') (h : xs ++ mark :: rest = xs' ++ mark :: rest') :
    xs = xs' ∧ rest = rest' := by
  induction xs generalizing xs' with
  | nil =>
    cases xs' with
    | nil => exact ⟨rfl, (List.cons.inj h).2⟩
    | cons x' tail' =>
      have hx' : mark = x' := (List.cons.inj h).1
      exact absurd (hx' ▸ List.mem_cons_self) hxs'
  | cons x xs ih =>
    rw [List.mem_cons, not_or] at hxs
    cases xs' with
    | nil =>
      have hx : x = mark := (List.cons.inj h).1
      exact absurd hx.symm hxs.1
    | cons x' xs' =>
      obtain ⟨hx, htail⟩ := List.cons.inj h
      rw [List.mem_cons, not_or] at hxs'
      obtain ⟨hxs_eq, hrest⟩ := ih hxs.2 hxs'.2 htail
      exact ⟨congrArg₂ List.cons hx hxs_eq, hrest⟩

/-- The first part of a key is an identifier. -/
theorem id_eq_of_keyPart_eq {table : Table} {id id' : RowId table} {rest rest' : List Char}
    (h : Text.integerDigits id.value ++ '_' :: rest =
      Text.integerDigits id'.value ++ '_' :: rest') : id = id' ∧ rest = rest' := by
  obtain ⟨hid, hrest⟩ := split_eq_of_notMem (underscore_notMem_integerDigits id.value)
    (underscore_notMem_integerDigits id'.value) h
  cases id
  cases id'
  exact ⟨congrArg RowId.mk (Text.integerDigits_injective hid), hrest⟩

/-- A screenshot is told by all three parts of its key. -/
theorem screenshotKey_eq_iff {test test' : TestId} {spec spec' : SpecId} {index index' : Nat} :
    screenshotKey test spec index = screenshotKey test' spec' index' ↔
      test = test' ∧ spec = spec' ∧ index = index' := by
  constructor
  · intro h
    have hchars := congrArg String.toList h
    rw [toList_screenshotKey, toList_screenshotKey] at hchars
    obtain ⟨htest, hrest⟩ := id_eq_of_keyPart_eq hchars
    obtain ⟨hspec, hindex⟩ := id_eq_of_keyPart_eq hrest
    exact ⟨htest, hspec, Nat.succ.inj (Text.digits_injective hindex)⟩
  · rintro ⟨rfl, rfl, rfl⟩
    rfl

/-- The key of a video tells its spec. -/
theorem videoKey_injective : Function.Injective videoKey := by
  rintro ⟨i⟩ ⟨j⟩ h
  exact congrArg RowId.mk (Text.intText_injective h)

/-- Only the key of a screenshot has a mark in it. -/
theorem screenshotKey_ne_videoKey (test : TestId) (spec spec' : SpecId) (index : Nat) :
    screenshotKey test spec index ≠ videoKey spec' := by
  intro h
  have hchars := congrArg String.toList h
  rw [toList_screenshotKey, toList_videoKey] at hchars
  refine underscore_notMem_integerDigits spec'.value ?_
  rw [← hchars]
  exact List.mem_append_right _ List.mem_cons_self

/-- Digits and signs stand in a key for themselves, and so do the marks between them. -/
theorem plainKey_screenshotKey (test : TestId) (spec : SpecId) (attemptIndex : Nat) :
    PlainKey (screenshotKey test spec attemptIndex) := by
  intro c hc
  rw [toList_screenshotKey, List.mem_append, List.mem_cons, List.mem_append, List.mem_cons] at hc
  rcases hc with hc | rfl | hc | rfl | hc
  · exact plain_of_mem_integerDigits hc
  · exact .inr (.inl rfl)
  · exact plain_of_mem_integerDigits hc
  · exact .inr (.inl rfl)
  · exact .inl (isAlphanum_of_isDigit (Text.isDigit_of_mem_digits hc))

/-- The key of a video is plain. -/
theorem plainKey_videoKey (spec : SpecId) : PlainKey (videoKey spec) := by
  intro c hc
  rw [toList_videoKey] at hc
  exact plain_of_mem_integerDigits hc

/-! ## Artifacts -/

/-- An upload before its key is written. -/
inductive Artifact where
  | screenshot (path : String) (test : TestId) (spec : SpecId) (attemptIndex : Nat)
  | video (path : String) (spec : SpecId)

namespace Artifact

/-- The upload of an artifact. -/
def upload : Artifact → Upload
  | .screenshot path test spec attemptIndex =>
    ⟨.screenshot, path, screenshotKey test spec attemptIndex⟩
  | .video path spec => ⟨.video, path, videoKey spec⟩

/-- The spec that an artifact belongs to. -/
def spec : Artifact → SpecId
  | .screenshot _ _ spec _ => spec
  | .video _ spec => spec

/-- What an artifact can show. -/
inductive Subject where
  | attempt (test : TestId) (index : Nat)
  | spec (spec : SpecId)
deriving DecidableEq

/-- What an artifact shows. -/
def subject : Artifact → Subject
  | .screenshot _ test _ attemptIndex => .attempt test attemptIndex
  | .video _ spec => .spec spec

theorem spec_of_subject {a : Artifact} {spec : SpecId} (h : a.subject = .spec spec) :
    a.spec = spec := by
  cases a with
  | screenshot path test spec index => cases h
  | video path spec =>
    cases h
    rfl

/-- **A key tells what is shown and for which spec**, and nothing else. -/
theorem key_eq_iff {a b : Artifact} :
    a.upload.key = b.upload.key ↔ a.subject = b.subject ∧ a.spec = b.spec := by
  -- the two kinds of keys never meet, and each kind tells its numbers
  cases a with
  | screenshot path test spec index =>
    cases b with
    | screenshot path' test' spec' index' =>
      show screenshotKey test spec index = screenshotKey test' spec' index' ↔ _
      rw [screenshotKey_eq_iff, subject, subject, Subject.attempt.injEq]
      show _ ↔ _ ∧ spec = spec'
      tauto
    | video path' spec' =>
      refine ⟨fun h => absurd h (screenshotKey_ne_videoKey test spec spec' index), ?_⟩
      rintro ⟨hsubject, -⟩
      cases hsubject
  | video path spec =>
    cases b with
    | screenshot path' test' spec' index' =>
      refine ⟨fun h => absurd h.symm (screenshotKey_ne_videoKey test' spec' spec index'), ?_⟩
      rintro ⟨hsubject, -⟩
      cases hsubject
    | video path' spec' =>
      show videoKey spec = videoKey spec' ↔ _
      rw [videoKey_injective.eq_iff, subject, subject, Subject.spec.injEq]
      exact (and_self_iff).symm

/-- **The key of an artifact is the path of its object.** -/
theorem objectPath_key (a : Artifact) : objectPath a.upload.key = a.upload.key := by
  cases a with
  | screenshot path test spec index => exact (plainKey_screenshotKey test spec index).objectPath_eq
  | video path spec => exact (plainKey_videoKey spec).objectPath_eq

end Artifact

namespace SpecResults

/-- The artifacts of a test. -/
def screenshotArtifacts (results : SpecResults) (t : TestResult) (test : TestId) (spec : SpecId) :
    List Artifact :=
  if t.hasFailedAttempt then
    (results.screenshotsOf t.testId).map fun s => .screenshot s.path test spec s.attemptIndex
  else []

/-- The artifact of a spec as a whole. -/
def videoArtifacts (results : SpecResults) (spec : SpecId) : List Artifact :=
  match results.video with
  | some path => if results.hasFailedAttempt then [.video path spec] else []
  | none => []

/-- The uploads of a test's screenshots are those of its artifacts. -/
theorem screenshotUploads_eq (results : SpecResults) (t : TestResult) (test : TestId)
    (spec : SpecId) :
    results.screenshotUploads t test spec =
      (results.screenshotArtifacts t test spec).map Artifact.upload := by
  rw [screenshotUploads, screenshotArtifacts]
  split
  · rw [List.map_map]
    rfl
  · rfl

theorem videoUploads_eq (results : SpecResults) (spec : SpecId) :
    results.videoUploads spec = (results.videoArtifacts spec).map Artifact.upload := by
  rw [videoUploads, videoArtifacts]
  cases results.video with
  | none => rfl
  | some path =>
    simp only
    split <;> rfl

/-- A test yields its own screenshots, and only if one of its attempts failed. -/
theorem mem_screenshotArtifacts {results : SpecResults} {t : TestResult} {test : TestId}
    {spec : SpecId} {a : Artifact} :
    a ∈ results.screenshotArtifacts t test spec ↔ t.hasFailedAttempt = true ∧
      ∃ shot ∈ results.screenshots, shot.testId = t.testId ∧
        a = .screenshot shot.path test spec shot.attemptIndex := by
  rw [screenshotArtifacts]
  split
  · rename_i hfailed
    simp only [hfailed, true_and, List.mem_map, screenshotsOf, List.mem_filter, beq_iff_eq,
      and_assoc, eq_comm (a := a)]
  · rename_i hfailed
    simp [hfailed]

/-- A spec yields its video, if there is one and an attempt of any test failed. -/
theorem mem_videoArtifacts {results : SpecResults} {spec : SpecId} {a : Artifact} :
    a ∈ results.videoArtifacts spec ↔ results.hasFailedAttempt = true ∧
      ∃ path, results.video = some path ∧ a = .video path spec := by
  rw [videoArtifacts]
  cases results.video with
  | none => simp
  | some path =>
    by_cases hfailed : results.hasFailedAttempt = true
    · simp [hfailed]
    · simp [hfailed]

end SpecResults

/-! ## Artifacts of a step -/

/-- The spec and the row of a test that a call has made. -/
def Call.test? : Call → Option (SpecId × TestId)
  | ⟨.insertTest row, .ok id⟩ => some (row.specId, id)
  | _ => none

/-- The spec whose summary a call has set. -/
def Call.completed? : Call → Option SpecId
  | ⟨.completeSpec spec _, .ok _⟩ => some spec
  | _ => none

/-- The results that an event reports. -/
def Event.results? : Event → Option SpecResults
  | .afterSpec _ results => some results
  | _ => none

namespace Step

/-- The tests of a step that got a row, each with its spec and its row. -/
def testRows (t : Step) (results : SpecResults) : List (TestResult × SpecId × TestId) :=
  results.tests.zip (t.calls.filterMap Call.test?)

/-- The spec that ended in a step with rows for all of its tests. -/
def endedSpec? (t : Step) : Option SpecId :=
  if t.outcome = .recorded then lastAnswer Call.completed? t.calls else none

/-- The artifacts of a step that reports results. -/
def artifactsOf (t : Step) (results : SpecResults) : List Artifact :=
  ((t.testRows results).flatMap fun (test, spec, id) => results.screenshotArtifacts test id spec) ++
    t.endedSpec?.toList.flatMap results.videoArtifacts

/-- The artifacts of a step. -/
def artifacts (t : Step) : List Artifact := t.event.results?.toList.flatMap t.artifactsOf

end Step

/-! ## The end of a spec -/

variable {results : SpecResults} {spec : SpecId} {tests : List TestResult}
  {result : Except HookError Unit} {blocks : List (Call × List Upload)}

/-- Tests get their rows in order, up to the first that is refused. -/
theorem TestsMade.uploads_eq (h : TestsMade results spec tests result blocks) :
    blocks.flatMap Prod.snd =
      ((tests.zip ((blocks.map Prod.fst).filterMap Call.test?)).flatMap fun (test, spec, id) =>
        results.screenshotArtifacts test id spec).map Artifact.upload := by
  induction h with
  | done => rfl
  | refused test rest cause => rfl
  | @made test rest id result blocks hrest ih =>
    have htest : Call.test? ⟨.insertTest (test.row spec), .ok id⟩ = some (spec, id) := rfl
    rw [List.flatMap_cons, List.map_cons, List.filterMap_cons_some htest, List.zip_cons_cons,
      List.flatMap_cons, List.map_append, ← ih, SpecResults.screenshotUploads_eq]

/-- Every test with a row got it from a call. -/
theorem TestsMade.mem_of_mem_zip (h : TestsMade results spec tests result blocks)
    {test : TestResult} {spec' : SpecId} {id : TestId}
    (hmem : (test, spec', id) ∈ tests.zip ((blocks.map Prod.fst).filterMap Call.test?)) :
    spec' = spec ∧ ⟨.insertTest (test.row spec), .ok id⟩ ∈ blocks.map Prod.fst := by
  induction h with
  | done => cases hmem
  | refused test rest cause => cases hmem
  | @made first rest id' result blocks hrest ih =>
    have hfirst : Call.test? ⟨.insertTest (first.row spec), .ok id'⟩ = some (spec, id') := rfl
    rw [List.map_cons, List.filterMap_cons_some hfirst, List.zip_cons_cons] at hmem
    rw [List.map_cons]
    rcases List.mem_cons.mp hmem with heq | hmem
    · cases heq
      exact ⟨rfl, List.mem_cons_self⟩
    · obtain ⟨hspec, hcall⟩ := ih hmem
      exact ⟨hspec, List.mem_cons_of_mem _ hcall⟩

/-- Where nothing is refused, all tests get rows. -/
theorem TestsMade.map_fst_zip (h : TestsMade results spec tests (.ok ()) blocks) :
    (tests.zip ((blocks.map Prod.fst).filterMap Call.test?)).map Prod.fst = tests := by
  generalize hresult : (.ok () : Except HookError Unit) = result at h
  induction h with
  | done => rfl
  | refused test rest cause => cases hresult
  | @made test rest id result blocks hrest ih =>
    have htest : Call.test? ⟨.insertTest (test.row spec), .ok id⟩ = some (spec, id) := rfl
    rw [List.map_cons, List.filterMap_cons_some htest, List.zip_cons_cons, List.map_cons,
      ih hresult]

/-- Making tests completes no spec. -/
theorem TestsMade.lastAnswer_completed (h : TestsMade results spec tests result blocks) :
    lastAnswer Call.completed? (blocks.map Prod.fst) = none := by
  induction h with
  | done => rfl
  | refused test rest cause => rfl
  | @made test rest id result blocks hrest ih =>
    have htest : Call.completed? ⟨.insertTest (test.row spec), .ok id⟩ = none := rfl
    rw [List.map_cons, lastAnswer, List.filterMap_cons_none htest]
    exact ih

variable {σ : Type} (store : Store σ) (identity : Identity)

/-- What the end of a spec with a row comes to: its summary is refused, or its tests are made. -/
theorem stepOf_afterSpec_of_spec (now : Timestamp) (name : String) (results : SpecResults)
    {r : RunState} (s : σ) {current : CurrentSpec} (hcurrent : r.spec = some current) :
    let t := stepOf store identity now (.afterSpec name results) r s
    (∃ cause, t.outcome = .failed ∧ t.uploads = [] ∧
      t.calls = [⟨.completeSpec current.id (.ofStats results.stats), .error cause⟩]) ∨
    ∃ result blocks, TestsMade results current.id results.tests result blocks ∧
      t.outcome = outcomeOf result ∧
      t.uploads = blocks.flatMap Prod.snd ++ results.closingUploads current.id result ∧
      t.calls = ⟨.completeSpec current.id (.ofStats results.stats), .ok ()⟩ ::
        blocks.map Prod.fst := by
  rcases afterSpec_logged store r s name results with
    ⟨hnone, -⟩ | ⟨current', hcurrent', ⟨cause, s', hreport⟩ | ⟨result, blocks, s', hmade, hreport⟩⟩
  · rw [hnone] at hcurrent
    cases hcurrent
  · rw [hcurrent'] at hcurrent
    cases hcurrent
    rw [(stepOf_of_logged store identity now (.afterSpec name results) hreport).1]
    exact .inl ⟨cause, rfl, rfl, rfl⟩
  · rw [hcurrent'] at hcurrent
    cases hcurrent
    rw [(stepOf_of_logged store identity now (.afterSpec name results) hreport).1]
    exact .inr ⟨result, blocks, hmade, rfl, rfl, rfl⟩

/-- The end of a spec without a row comes to nothing. -/
theorem stepOf_afterSpec_of_none (now : Timestamp) (name : String) (results : SpecResults)
    {r : RunState} (s : σ) (hnone : r.spec = none) :
    let t := stepOf store identity now (.afterSpec name results) r s
    t.outcome = .failed ∧ t.uploads = [] ∧ t.calls = [] := by
  rcases afterSpec_logged store r s name results with ⟨-, hreport⟩ | ⟨current, hcurrent, -⟩
  · rw [(stepOf_of_logged store identity now (.afterSpec name results) hreport).1]
    exact ⟨rfl, rfl, rfl⟩
  · rw [hnone] at hcurrent
    cases hcurrent

/-- What the end of a spec comes to: nothing, if there is no spec that could end or its summary is
refused, and otherwise rows for its tests. -/
theorem stepOf_afterSpec (now : Timestamp) (name : String) (results : SpecResults) (r : RunState)
    (s : σ) :
    let t := stepOf store identity now (.afterSpec name results) r s
    (t.outcome = .failed ∧ t.testRows results = [] ∧ t.uploads = []) ∨
      ∃ current result blocks, r.spec = some current ∧
        TestsMade results current.id results.tests result blocks ∧
        t.outcome = outcomeOf result ∧
        t.calls = ⟨.completeSpec current.id (.ofStats results.stats), .ok ()⟩ ::
          blocks.map Prod.fst ∧
        t.testRows results =
          results.tests.zip ((blocks.map Prod.fst).filterMap Call.test?) ∧
        t.uploads = blocks.flatMap Prod.snd ++ results.closingUploads current.id result := by
  intro t
  cases hspec : r.spec with
  | none =>
    obtain ⟨houtcome, huploads, hcalls⟩ :=
      stepOf_afterSpec_of_none store identity now name results s hspec
    refine .inl ⟨houtcome, ?_, huploads⟩
    rw [Step.testRows, hcalls, List.filterMap_nil, List.zip_nil_right]
  | some current =>
    rcases stepOf_afterSpec_of_spec store identity now name results s hspec with
      ⟨cause, houtcome, huploads, hcalls⟩ | ⟨result, blocks, hmade, houtcome, huploads, hcalls⟩
    · refine .inl ⟨houtcome, ?_, huploads⟩
      rw [Step.testRows, hcalls]
      exact List.zip_nil_right
    · refine .inr ⟨current, result, blocks, rfl, hmade, houtcome, hcalls, ?_, huploads⟩
      rw [Step.testRows, hcalls]
      rfl

/-- The spec that ends is the one whose tests all got rows. -/
theorem Step.endedSpec?_eq {t : Step} {summary : SpecSummary}
    (hmade : TestsMade results spec tests result blocks) (houtcome : t.outcome = outcomeOf result)
    (hcalls : t.calls = ⟨.completeSpec spec summary, .ok ()⟩ :: blocks.map Prod.fst) :
    t.endedSpec? = if outcomeOf result = .recorded then some spec else none := by
  rw [Step.endedSpec?, houtcome, hcalls, ← List.singleton_append, lastAnswer_append,
    hmade.lastAnswer_completed]
  rfl

/-- **The uploads of a step are those of its artifacts.** -/
theorem uploads_stepOf (now : Timestamp) (e : Event) (r : RunState) (s : σ) :
    (stepOf store identity now e r s).uploads =
      (stepOf store identity now e r s).artifacts.map Artifact.upload := by
  -- only the end of a spec uploads anything
  cases e with
  | beforeRun browser =>
    show (beforeRun store identity browser r s).uploads = []
    rw [beforeRun]
    split
    · rfl
    · split <;> rfl
  | beforeSpec name =>
    show (beforeSpec store name r s).uploads = []
    rw [beforeSpec]
    split
    · rfl
    · split <;> rfl
  | afterSpec name results =>
    have hartifacts : (stepOf store identity now (.afterSpec name results) r s).artifacts =
        (stepOf store identity now (.afterSpec name results) r s).artifactsOf results :=
      List.append_nil _
    rw [hartifacts]
    rcases stepOf_afterSpec store identity now name results r s with
      ⟨houtcome, hrows, huploads⟩ |
        ⟨current, result, blocks, -, hmade, houtcome, hcalls, hrows, huploads⟩
    · rw [huploads, Step.artifactsOf, hrows, Step.endedSpec?, houtcome]
      rfl
    · rw [huploads, Step.artifactsOf, hrows, Step.endedSpec?_eq hmade houtcome hcalls,
        List.map_append, ← hmade.uploads_eq]
      cases result with
      | error cause => rfl
      | ok _ =>
        rw [SpecResults.closingUploads, SpecResults.videoUploads_eq]
        exact congrArg _ (congrArg _ (List.append_nil _).symm)
  | afterRun details => rfl

/-! ## Where artifacts come from -/

/-- A test with a row got it from a call of its step, for the spec that is remembered. -/
theorem call_of_mem_testRows {now : Timestamp} {name : String} {r : RunState} {s : σ}
    {test : TestResult} {id : TestId}
    (h : (test, spec, id) ∈
      (stepOf store identity now (.afterSpec name results) r s).testRows results) :
    r.spec.map CurrentSpec.id = some spec ∧ ⟨.insertTest (test.row spec), .ok id⟩ ∈
      (stepOf store identity now (.afterSpec name results) r s).calls := by
  rcases stepOf_afterSpec store identity now name results r s with
    ⟨-, hrows, -⟩ | ⟨current, result, blocks, hcurrent, hmade, -, hcalls, hrows, -⟩
  · rw [hrows] at h
    cases h
  · rw [hrows] at h
    obtain ⟨rfl, hcall⟩ := hmade.mem_of_mem_zip h
    rw [hcurrent, hcalls]
    exact ⟨rfl, List.mem_cons_of_mem _ hcall⟩

/-- A spec that ended is the one that is remembered. -/
theorem spec_of_endedSpec? {now : Timestamp} {name : String} {r : RunState} {s : σ}
    (h : (stepOf store identity now (.afterSpec name results) r s).endedSpec? = some spec) :
    r.spec.map CurrentSpec.id = some spec := by
  rcases stepOf_afterSpec store identity now name results r s with
    ⟨houtcome, -, -⟩ | ⟨current, result, blocks, hcurrent, hmade, houtcome, hcalls, -, -⟩
  · rw [Step.endedSpec?, houtcome] at h
    cases h
  · rw [Step.endedSpec?_eq hmade houtcome hcalls] at h
    split at h
    · rw [hcurrent]
      exact h
    · cases h

/-- A spec that ended was given its summary. -/
theorem Step.exists_call_of_endedSpec? {t : Step} (h : t.endedSpec? = some spec) :
    ∃ summary, (⟨.completeSpec spec summary, .ok ()⟩ : Call) ∈ t.calls := by
  rw [Step.endedSpec?] at h
  split at h
  · obtain ⟨c, hc, hspec⟩ := List.mem_filterMap.mp (List.mem_of_getLast? h)
    obtain ⟨request, answer⟩ := c
    cases request with
    | completeSpec spec' summary =>
      cases answer with
      | ok answer =>
        cases hspec
        exact ⟨summary, hc⟩
      | error cause => cases hspec
    | _ => cases hspec
  · cases h

/-- Each test of a spec that ended got a row. -/
theorem map_fst_testRows {now : Timestamp} {name : String} {r : RunState} {s : σ}
    (h : (stepOf store identity now (.afterSpec name results) r s).endedSpec? = some spec) :
    ((stepOf store identity now (.afterSpec name results) r s).testRows results).map Prod.fst =
      results.tests := by
  rcases stepOf_afterSpec store identity now name results r s with
    ⟨houtcome, -, -⟩ | ⟨current, result, blocks, -, hmade, houtcome, hcalls, hrows, -⟩
  · rw [Step.endedSpec?, houtcome] at h
    cases h
  · rw [Step.endedSpec?_eq hmade houtcome hcalls] at h
    cases result with
    | ok _ =>
      rw [hrows]
      exact hmade.map_fst_zip
    | error cause => cases h

/-- When the summary of a spec is refused, nothing else is asked for. -/
theorem calls_stepOf_of_refused {now : Timestamp} {name : String} {r : RunState} {s s' : σ}
    {current : CurrentSpec} {cause : StoreError} (hspec : r.spec = some current)
    (hrefused : store (.completeSpec current.id (.ofStats results.stats)) s = (.error cause, s')) :
    (stepOf store identity now (.afterSpec name results) r s).calls =
      [⟨.completeSpec current.id (.ofStats results.stats), .error cause⟩] := by
  show (afterSpec store.logged name results r (s, [])).store.2 = _
  rw [afterSpec, hspec]
  simp only [Store.logged_of_eq hrefused]
  rfl

/-- What a step yields comes from the results it reports: screenshots by test, then the video. -/
theorem Step.mem_artifacts {t : Step} {a : Artifact} :
    a ∈ t.artifacts ↔ ∃ name results, t.event = .afterSpec name results ∧
      ((∃ test spec id, (test, spec, id) ∈ t.testRows results ∧
          a ∈ results.screenshotArtifacts test id spec) ∨
        ∃ spec, t.endedSpec? = some spec ∧ a ∈ results.videoArtifacts spec) := by
  -- for given results, the screenshots come test by test and the video last
  have hof : ∀ results, a ∈ t.artifactsOf results ↔
      ((∃ test spec id, (test, spec, id) ∈ t.testRows results ∧
          a ∈ results.screenshotArtifacts test id spec) ∨
        ∃ spec, t.endedSpec? = some spec ∧ a ∈ results.videoArtifacts spec) := by
    intro results
    simp only [artifactsOf, List.mem_append, List.mem_flatMap, Prod.exists, Option.mem_toList]
  constructor
  · intro ha
    obtain ⟨results, hresults, ha⟩ := List.mem_flatMap.mp ha
    cases hevent : t.event with
    | afterSpec name results' =>
      rw [hevent] at hresults
      cases List.mem_singleton.mp hresults
      exact ⟨name, results, rfl, (hof results).mp ha⟩
    | beforeRun browser =>
      rw [hevent] at hresults
      cases hresults
    | beforeSpec name =>
      rw [hevent] at hresults
      cases hresults
    | afterRun details =>
      rw [hevent] at hresults
      cases hresults
  · rintro ⟨name, results, hevent, h⟩
    refine List.mem_flatMap.mpr ⟨results, ?_, (hof results).mpr h⟩
    rw [hevent]
    exact List.mem_singleton.mpr rfl

/-- **An artifact belongs to the spec that is remembered**, and a screenshot to a test that got its
row in the same step. -/
theorem origin_of_mem_artifacts {now : Timestamp} {e : Event} {r : RunState} {s : σ} {a : Artifact}
    (ha : a ∈ (stepOf store identity now e r s).artifacts) :
    r.spec.map CurrentSpec.id = some a.spec ∧
      ∀ test index, a.subject = .attempt test index → ∃ row, row.specId = a.spec ∧
        ⟨.insertTest row, .ok test⟩ ∈ (stepOf store identity now e r s).calls := by
  obtain ⟨name, results, hevent, horigin⟩ := Step.mem_artifacts.mp ha
  obtain rfl : e = .afterSpec name results := hevent
  rcases horigin with ⟨test, spec, id, hrow, ha⟩ | ⟨spec, hended, ha⟩
  · obtain ⟨-, shot, -, -, rfl⟩ := SpecResults.mem_screenshotArtifacts.mp ha
    obtain ⟨hspec, hcall⟩ := call_of_mem_testRows store identity hrow
    refine ⟨hspec, fun test' index hsubject => ?_⟩
    cases hsubject
    exact ⟨test.row spec, rfl, hcall⟩
  · obtain ⟨-, path, -, rfl⟩ := SpecResults.mem_videoArtifacts.mp ha
    refine ⟨spec_of_endedSpec? store identity hended, fun test index hsubject => ?_⟩
    cases hsubject

end RunJournal
