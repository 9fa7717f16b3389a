import RunJournal.Proofs.Recorder.Calls
import RunJournal.Proofs.Recorder.Course
import RunJournal.Store.Tables

/-!
# Where identifiers come from

A recorder passes identifiers on: those of its attempt, its shard and its spec in requests, and
those of specs and tests in the keys of what it uploads. Every one of them was given by its store
before, in answer to a call of the right kind, and it is the one that was given last.

`stepsOf` are the steps of a recorder, one for each event, each with the calls made in it.
`Justified` says what the steps before it justify in a step, and `justified_of_stepsOf` is the main
statement: every step of every recorder is justified, whatever its store answers and in whatever
order the events come. The invariant is `Grounded`: the recorder remembers exactly what the last
calls of each kind were answered with. In particular a spec is forgotten when the next one begins,
whether or not that one gets a row.
-/

namespace RunJournal

/-! ## What calls were answered with -/

/-- The attempt that a call was answered with. -/
def Call.attempt? : Call → Option AttemptId
  | ⟨.upsertAttempt _, .ok id⟩ => some id
  | _ => none

/-- The shard that a call was answered with. -/
def Call.matrix? : Call → Option MatrixId
  | ⟨.upsertMatrix _, .ok id⟩ => some id
  | _ => none

/-- The spec that a call was answered with. -/
def Call.spec? : Call → Option SpecId
  | ⟨.insertSpec _ _, .ok id⟩ => some id
  | _ => none

/-- Only the beginning of a run is answered with an attempt. -/
theorem Call.attempt?_eq_none {c : Call} (h : c.request.kind.event ≠ .beforeRun) :
    c.attempt? = none := by
  obtain ⟨request, answer⟩ := c
  cases request with
  | upsertAttempt row => exact absurd rfl h
  | _ => rfl

theorem Call.matrix?_eq_none {c : Call} (h : c.request.kind.event ≠ .beforeRun) :
    c.matrix? = none := by
  obtain ⟨request, answer⟩ := c
  cases request with
  | upsertMatrix row => exact absurd rfl h
  | _ => rfl

/-! ## Steps -/

/-- What a recorder did for one event. -/
structure Step where
  event : Event
  outcome : Outcome
  /-- The calls made, in order. -/
  calls : List Call
  /-- The uploads submitted, in order. -/
  uploads : List Upload
  /-- The notices made, in order. -/
  notices : List Notice

/-- The calls of steps. -/
def callsOf (steps : List Step) : List Call := steps.flatMap Step.calls

/-- Whether a spec begins in a step. -/
def Step.beginsSpec (t : Step) : Bool := t.event.kind == .beforeSpec

/-- The spec that the last start of a spec was answered with; none if that start got no row. -/
def currentSpec (steps : List Step) : Option SpecId :=
  (steps.filter Step.beginsSpec).getLast?.bind fun t => lastAnswer Call.spec? t.calls

variable {σ : Type} (store : Store σ) (identity : Identity)

/-- What a recorder in the state `r` does for an event. -/
def stepOf (now : Timestamp) (e : Event) (r : RunState) (s : σ) : Step :=
  let report := recordEvent store identity now e r s
  { event := e
    outcome := report.outcome
    calls := (recordEvent store.logged identity now e r (s, [])).store.2
    uploads := report.uploads
    notices := report.notices }

/-- The steps of a recorder that is given events one after the other, each at a time. -/
def stepsOf : List (Timestamp × Event) → RunState → σ → List Step
  | [], _, _ => []
  | (now, e) :: rest, r, s =>
    let report := recordEvent store identity now e r s
    stepOf store identity now e r s :: stepsOf rest report.state report.store

/-! ## Justified steps -/

/-- Every identifier in a request is the one that was given last: with the steps `past` before, and
the calls `before` in the same step. -/
def Request.Sourced (past : List Step) (before : List Call) : Request → Prop
  | .upsertAttempt _ => True
  | .upsertMatrix row => lastAnswer Call.attempt? before = some row.attemptId
  | .insertSpec _ matrix => lastAnswer Call.matrix? (callsOf past ++ before) = some matrix
  | .completeSpec spec _ => currentSpec past = some spec
  | .insertTest row => currentSpec past = some row.specId
  | .finishMatrix matrix => lastAnswer Call.matrix? (callsOf past ++ before) = some matrix
  | .finishAttempt attempt _ => lastAnswer Call.attempt? (callsOf past ++ before) = some attempt
  | .close => True

/-- The uploads that follow each call, and those at the end, have keys made of the current spec and
of the test that the call was answered with. -/
structure Keyed (spec : SpecId) (results : SpecResults) (blocks : List (Call × List Upload))
    (closing : List Upload) : Prop where
  screenshots : ∀ block ∈ blocks, ∀ upload ∈ block.2,
    ∃ test ∈ results.tests, ∃ id, ∃ shot ∈ results.screenshotsOf test.testId,
      block.1 = ⟨.insertTest (test.row spec), .ok id⟩ ∧
        upload = ⟨.screenshot, shot.path, screenshotKey id spec shot.attemptIndex⟩
  videos : ∀ upload ∈ closing, ∃ path, upload = ⟨.video, path, videoKey spec⟩

/-- A request of a kind is made in a step exactly if there is the identifier that it needs, and
without the identifier something fails. -/
def Step.Needs {α : Type} (t : Step) (kind : RequestKind) (id : Option α) (fails : Prop) : Prop :=
  ((∃ c ∈ t.calls, c.request.kind = kind) ↔ id ≠ none) ∧ (id = none → fails)

/-- What is asked in a step of each kind, and what fails where an identifier is missing. -/
def Step.MeetsNeeds (past : List Step) (t : Step) : Prop :=
  match t.event with
  | .beforeRun _ =>
    t.Needs .upsertMatrix (lastAnswer Call.attempt? t.calls) (t.outcome = .failed)
  | .beforeSpec _ =>
    t.Needs .insertSpec (lastAnswer Call.matrix? (callsOf past)) (t.outcome = .failed)
  | .afterSpec _ _ =>
    t.Needs .completeSpec (currentSpec past) (t.calls = [] ∧ t.uploads = [] ∧ t.outcome = .failed)
  | .afterRun _ =>
    t.Needs .finishMatrix (lastAnswer Call.matrix? (callsOf past))
        (.hookFailed .afterRun .missingMatrix ∈ t.notices ∧ t.outcome = .failed) ∧
      t.Needs .finishAttempt (lastAnswer Call.attempt? (callsOf past))
        (.hookFailed .afterRun .missingAttempt ∈ t.notices ∧ t.outcome = .failed)

/-- What the steps before it justify in a step. -/
structure Justified (past : List Step) (t : Step) : Prop where
  kinds : ∀ c ∈ t.calls, c.request.kind.event = t.event.kind
  sourced : ∀ before c after, t.calls = before ++ c :: after → c.request.Sourced past before
  uploads : t.uploads = [] ∨ ∃ (name : String) (results : SpecResults) (spec : SpecId)
    (blocks : List (Call × List Upload)) (closing : List Upload),
    t.event = .afterSpec name results ∧ currentSpec past = some spec ∧
      t.calls = blocks.map Prod.fst ∧ t.uploads = blocks.flatMap Prod.snd ++ closing ∧
      Keyed spec results blocks closing
  needs : t.MeetsNeeds past

/-- A recorder remembers exactly what the last calls of each kind were answered with. -/
structure Grounded (past : List Step) (r : RunState) : Prop where
  attemptId : r.attemptId = lastAnswer Call.attempt? (callsOf past)
  matrixId : r.matrixId = lastAnswer Call.matrix? (callsOf past)
  spec : r.spec.map CurrentSpec.id = currentSpec past

/-! ## One more step -/

variable {past : List Step} {t : Step} {r : RunState}

/-- The last answer is found in the last step, or else before it. -/
theorem lastAnswer_callsOf_append {α : Type} (answer? : Call → Option α) :
    lastAnswer answer? (callsOf (past ++ [t])) =
      (lastAnswer answer? t.calls).or (lastAnswer answer? (callsOf past)) := by
  rw [callsOf, List.flatMap_append, List.flatMap_singleton, lastAnswer_append]
  rfl

/-- The beginning of a spec replaces the spec that was current, even by none. -/
theorem currentSpec_append_of_beforeSpec (h : t.event.kind = .beforeSpec) :
    currentSpec (past ++ [t]) = lastAnswer Call.spec? t.calls := by
  have hpos : t.beginsSpec = true := by
    rw [Step.beginsSpec, h]
    rfl
  rw [currentSpec, List.filter_append, List.filter_cons_of_pos hpos, List.filter_nil,
    List.getLast?_concat]
  rfl

/-- No other event replaces the current spec. -/
theorem currentSpec_append_of_ne (h : t.event.kind ≠ .beforeSpec) :
    currentSpec (past ++ [t]) = currentSpec past := by
  have hneg : ¬t.beginsSpec = true := fun hc => h (eq_of_beq hc)
  rw [currentSpec, List.filter_append, List.filter_cons_of_neg hneg, List.filter_nil,
    List.append_nil]
  rfl

/-- What was answered before a step is still the last answer after calls for other events than the
start of a run. -/
theorem Request.Sourced.frame {q : Request} {before : List Call} (h : q.Sourced past [])
    (hbefore : ∀ c ∈ before, c.request.kind.event ≠ .beforeRun) : q.Sourced past before := by
  have hattempt : lastAnswer Call.attempt? before = none :=
    lastAnswer_eq_none fun c hc => Call.attempt?_eq_none (hbefore c hc)
  have hmatrix : lastAnswer Call.matrix? before = none :=
    lastAnswer_eq_none fun c hc => Call.matrix?_eq_none (hbefore c hc)
  -- a shard is never asked for on the strength of earlier steps
  cases q with
  | upsertMatrix row => cases h
  | insertSpec name matrix =>
    rw [Request.Sourced, List.append_nil] at h
    rw [Request.Sourced, lastAnswer_append, hmatrix, h]
    rfl
  | finishMatrix matrix =>
    rw [Request.Sourced, List.append_nil] at h
    rw [Request.Sourced, lastAnswer_append, hmatrix, h]
    rfl
  | finishAttempt attempt endTime =>
    rw [Request.Sourced, List.append_nil] at h
    rw [Request.Sourced, lastAnswer_append, hattempt, h]
    rfl
  | upsertAttempt row => exact h
  | completeSpec spec summary => exact h
  | insertTest row => exact h
  | close => exact h

/-- The calls of a step that starts no run need to be sourced by the steps before it only. -/
theorem sourced_of_kinds (hne : t.event.kind ≠ .beforeRun)
    (hkinds : ∀ c ∈ t.calls, c.request.kind.event = t.event.kind)
    (h : ∀ c ∈ t.calls, c.request.Sourced past []) :
    ∀ before c after, t.calls = before ++ c :: after → c.request.Sourced past before := by
  intro before c after hcalls
  have hc : c ∈ t.calls := by
    rw [hcalls]
    exact List.mem_append_right _ List.mem_cons_self
  refine (h c hc).frame fun b hb => ?_
  have hmem : b ∈ t.calls := by
    rw [hcalls]
    exact List.mem_append_left _ hb
  rw [hkinds b hmem]
  exact hne

/-- One more step adds what it was answered to what the recorder remembers. -/
theorem Grounded.append {r' : RunState} (h : Grounded past r)
    (hattempt : r'.attemptId = (lastAnswer Call.attempt? t.calls).or r.attemptId)
    (hmatrix : r'.matrixId = (lastAnswer Call.matrix? t.calls).or r.matrixId)
    (hspec : r'.spec.map CurrentSpec.id = currentSpec (past ++ [t])) :
    Grounded (past ++ [t]) r' := by
  refine ⟨?_, ?_, hspec⟩
  · rw [lastAnswer_callsOf_append, hattempt, h.attemptId]
  · rw [lastAnswer_callsOf_append, hmatrix, h.matrixId]

/-- A step that starts no run leaves the last attempt and the last shard as they are. -/
theorem Grounded.append_of_ne {r' : RunState} (h : Grounded past r)
    (hne : t.event.kind ≠ .beforeRun)
    (hkinds : ∀ c ∈ t.calls, c.request.kind.event = t.event.kind)
    (hattempt : r'.attemptId = r.attemptId) (hmatrix : r'.matrixId = r.matrixId)
    (hspec : r'.spec.map CurrentSpec.id = currentSpec (past ++ [t])) :
    Grounded (past ++ [t]) r' := by
  have hother : ∀ c ∈ t.calls, c.request.kind.event ≠ .beforeRun := by
    intro c hc
    rw [hkinds c hc]
    exact hne
  refine h.append ?_ ?_ hspec
  · rw [lastAnswer_eq_none fun c hc => Call.attempt?_eq_none (hother c hc), Option.none_or]
    exact hattempt
  · rw [lastAnswer_eq_none fun c hc => Call.matrix?_eq_none (hother c hc), Option.none_or]
    exact hmatrix

/-- A step without calls and uploads passes nothing on. -/
theorem justified_of_calls_eq_nil (hcalls : t.calls = []) (huploads : t.uploads = [])
    (hneeds : t.MeetsNeeds past) : Justified past t where
  kinds c hc := by
    rw [hcalls] at hc
    exact absurd hc List.not_mem_nil
  sourced before c after hsplit := by
    rw [hcalls] at hsplit
    exact absurd (List.append_eq_nil_iff.mp hsplit.symm).2 (List.cons_ne_nil _ _)
  uploads := Or.inl huploads
  needs := hneeds

/-- Without the id that a call needs there is no such call, and the step fails. -/
theorem Step.needs_of_eq_none {α : Type} {kind : RequestKind} {id : Option α} {fails : Prop}
    (hid : id = none) (hcalls : ∀ c ∈ t.calls, c.request.kind ≠ kind) (hfails : fails) :
    t.Needs kind id fails := by
  refine ⟨⟨?_, fun hne => absurd hid hne⟩, fun _ => hfails⟩
  rintro ⟨c, hc, hkind⟩
  exact absurd hkind (hcalls c hc)

/-- With the id that a call needs, there is such a call. -/
theorem Step.needs_of_eq_some {α : Type} {kind : RequestKind} {id : Option α} {fails : Prop} {a : α}
    (hid : id = some a) (hcalls : ∃ c ∈ t.calls, c.request.kind = kind) :
    t.Needs kind id fails := by
  have hne : id ≠ none := by
    rw [hid]
    exact Option.some_ne_none a
  exact ⟨⟨fun _ => hne, fun _ => hcalls⟩, fun hnone => absurd hnone hne⟩

/-- A step as its logged report tells it. -/
theorem stepOf_of_logged (now : Timestamp) (e : Event) {s : σ}
    {report : HookReport (σ × List Call)}
    (h : recordEvent store.logged identity now e r (s, []) = report) :
    stepOf store identity now e r s =
        ⟨e, report.outcome, report.store.2, report.uploads, report.notices⟩ ∧
      (recordEvent store identity now e r s).state = report.state := by
  have hplain := recordEvent_logged store identity now r s e []
  rw [h] at hplain
  rw [stepOf, h, ← hplain]
  exact ⟨rfl, rfl⟩

/-! ## The four events -/

/-- A run that starts without an attempt fails before its shard. -/
theorem justified_of_noAttempt (browser : String) (row : NewAttempt) (cause : StoreError)
    (notices : List Notice) :
    Justified past
      ⟨.beforeRun browser, .failed, [⟨.upsertAttempt row, .error cause⟩], [], notices⟩ where
  kinds c hc := by
    rw [List.mem_singleton.mp hc]
    rfl
  sourced before c after hcalls := by
    have hc : c ∈ before ++ c :: after := List.mem_append_right _ List.mem_cons_self
    rw [← hcalls] at hc
    rw [List.mem_singleton.mp hc]
    trivial
  uploads := Or.inl rfl
  needs := by
    refine Step.needs_of_eq_none rfl (fun c hc => ?_) rfl
    rw [List.mem_singleton.mp hc]
    exact fun hkind => RequestKind.noConfusion hkind

/-- A run that starts with an attempt asks for a shard of that attempt. -/
theorem justified_of_attempt (browser : String) (row : NewAttempt) (shard : NewMatrix)
    (answer : Except StoreError MatrixId) (outcome : Outcome) (notices : List Notice) :
    Justified past
      ⟨.beforeRun browser, outcome,
        [⟨.upsertAttempt row, .ok shard.attemptId⟩, ⟨.upsertMatrix shard, answer⟩], [],
        notices⟩ where
  kinds c hc := by
    rcases List.mem_cons.mp hc with rfl | hc
    · rfl
    · rw [List.mem_singleton.mp hc]
      rfl
  sourced before c after hcalls := by
    -- there are two places for a call, and only the second one passes an identifier on
    match before with
    | [] =>
      injection hcalls with hc _
      rw [← hc]
      trivial
    | [b] =>
      injection hcalls with hb hrest
      injection hrest with hc _
      rw [← hb, ← hc]
      rfl
    | b :: b' :: rest =>
      injection hcalls with _ hrest
      injection hrest with _ hnil
      exact absurd (List.append_eq_nil_iff.mp hnil.symm).2 (List.cons_ne_nil _ _)
  uploads := Or.inl rfl
  needs := Step.needs_of_eq_some rfl
    ⟨⟨.upsertMatrix shard, answer⟩, List.mem_cons_of_mem _ List.mem_cons_self, rfl⟩

/-- A beginning of a run is justified, and what it is answered is remembered. -/
theorem Grounded.step_beforeRun (h : Grounded past r) (now : Timestamp) (browser : String)
    (s : σ) :
    Justified past (stepOf store identity now (.beforeRun browser) r s) ∧
      Grounded (past ++ [stepOf store identity now (.beforeRun browser) r s])
        (recordEvent store identity now (.beforeRun browser) r s).state := by
  have hspec : ∀ t : Step, t.event = .beforeRun browser →
      r.spec.map CurrentSpec.id = currentSpec (past ++ [t]) := by
    intro t hevent
    rw [currentSpec_append_of_ne (by rw [hevent]; exact fun hc => EventKind.noConfusion hc)]
    exact h.spec
  -- the shard's identifier is replaced only when both calls succeed, the attempt's with the first
  rcases beforeRun_logged store identity r s browser with
    ⟨cause, s', hreport⟩ | ⟨attempt, cause, s', hreport⟩ | ⟨attempt, matrix, s', hreport⟩
  · obtain ⟨hstep, hstate⟩ := stepOf_of_logged store identity now (.beforeRun browser) hreport
    rw [hstep, hstate]
    exact ⟨justified_of_noAttempt _ _ _ _, h.append rfl rfl (hspec _ rfl)⟩
  · obtain ⟨hstep, hstate⟩ := stepOf_of_logged store identity now (.beforeRun browser) hreport
    rw [hstep, hstate]
    exact ⟨justified_of_attempt _ _ (identity.matrixRow attempt) _ _ _,
      h.append rfl rfl (hspec _ rfl)⟩
  · obtain ⟨hstep, hstate⟩ := stepOf_of_logged store identity now (.beforeRun browser) hreport
    rw [hstep, hstate]
    exact ⟨justified_of_attempt _ _ (identity.matrixRow attempt) _ _ _,
      h.append rfl rfl (hspec _ rfl)⟩

/-- A spec that begins with a shard asks for a row under the shard. -/
theorem justified_of_shard (name : String) {matrix : MatrixId}
    (hmatrix : lastAnswer Call.matrix? (callsOf past) = some matrix)
    (answer : Except StoreError SpecId) (outcome : Outcome) (notices : List Notice) :
    Justified past
      ⟨.beforeSpec name, outcome, [⟨.insertSpec name matrix, answer⟩], [], notices⟩ := by
  have hkinds : ∀ c ∈ [(⟨.insertSpec name matrix, answer⟩ : Call)],
      c.request.kind.event = .beforeSpec := by
    intro c hc
    rw [List.mem_singleton.mp hc]
    rfl
  refine ⟨hkinds, sourced_of_kinds (fun hc => EventKind.noConfusion hc) hkinds fun c hc => ?_,
    Or.inl rfl, Step.needs_of_eq_some hmatrix ⟨_, List.mem_cons_self, rfl⟩⟩
  rw [List.mem_singleton.mp hc, Request.Sourced, List.append_nil]
  exact hmatrix

/-- A beginning of a spec is justified, and what it is answered replaces the current spec. -/
theorem Grounded.step_beforeSpec (h : Grounded past r) (now : Timestamp) (name : String) (s : σ) :
    Justified past (stepOf store identity now (.beforeSpec name) r s) ∧
      Grounded (past ++ [stepOf store identity now (.beforeSpec name) r s])
        (recordEvent store identity now (.beforeSpec name) r s).state := by
  have hmatrixId := h.matrixId
  -- whatever spec was remembered before, from now on it is the one answered in this step
  have happend : ∀ (t : Step) (spec : Option CurrentSpec), t.event = .beforeSpec name →
      Justified past t → spec.map CurrentSpec.id = lastAnswer Call.spec? t.calls →
      Grounded (past ++ [t]) { r with spec := spec } := by
    intro t spec hevent hjustified hspec
    have hkind : t.event.kind = .beforeSpec := by
      rw [hevent]
      rfl
    refine h.append_of_ne ?_ hjustified.kinds rfl rfl ?_
    · rw [hkind]
      exact fun hc => EventKind.noConfusion hc
    · rw [currentSpec_append_of_beforeSpec hkind]
      exact hspec
  rcases beforeSpec_logged store r s name with
    ⟨hnone, hreport⟩ | ⟨matrix, hmatrix, ⟨cause, s', hreport⟩ | ⟨id, s', hreport⟩⟩
  · obtain ⟨hstep, hstate⟩ := stepOf_of_logged store identity now (.beforeSpec name) hreport
    rw [hnone] at hmatrixId
    rw [hstep, hstate]
    have hjustified : Justified past ⟨.beforeSpec name, .failed, [], [],
        [.hookFailed .beforeSpec .missingMatrix]⟩ :=
      justified_of_calls_eq_nil rfl rfl (Step.needs_of_eq_none hmatrixId.symm
        (fun c hc => absurd hc List.not_mem_nil) rfl)
    exact ⟨hjustified, happend _ none rfl hjustified rfl⟩
  · obtain ⟨hstep, hstate⟩ := stepOf_of_logged store identity now (.beforeSpec name) hreport
    rw [hmatrix] at hmatrixId
    rw [hstep, hstate]
    have hjustified := justified_of_shard name hmatrixId.symm (.error cause) .failed
      [.hookFailed .beforeSpec (.store cause)]
    exact ⟨hjustified, happend _ none rfl hjustified rfl⟩
  · obtain ⟨hstep, hstate⟩ := stepOf_of_logged store identity now (.beforeSpec name) hreport
    rw [hmatrix] at hmatrixId
    rw [hstep, hstate]
    have hjustified := justified_of_shard name hmatrixId.symm (.ok id) .recorded []
    exact ⟨hjustified, happend _ (some ⟨name, id⟩) rfl hjustified rfl⟩

/-- The calls for tests make rows under the spec. -/
theorem TestsMade.request_eq {results : SpecResults} {spec : SpecId} {tests : List TestResult}
    {result : Except HookError Unit} {blocks : List (Call × List Upload)}
    (h : TestsMade results spec tests result blocks) :
    ∀ block ∈ blocks, ∃ test : TestResult, block.1.request = .insertTest (test.row spec) := by
  induction h with
  | done => exact fun block hblock => absurd hblock List.not_mem_nil
  | refused test rest cause =>
    intro block hblock
    rw [List.mem_singleton.mp hblock]
    exact ⟨test, rfl⟩
  | @made test rest id result blocks hrest ih =>
    intro block hblock
    rcases List.mem_cons.mp hblock with rfl | hblock
    · exact ⟨test, rfl⟩
    · exact ih block hblock

/-- The uploads after the call for a test are screenshots of that test under its new row. -/
theorem TestsMade.screenshots {results : SpecResults} {spec : SpecId} {tests : List TestResult}
    {result : Except HookError Unit} {blocks : List (Call × List Upload)}
    (h : TestsMade results spec tests result blocks) :
    ∀ block ∈ blocks, ∀ upload ∈ block.2,
      ∃ test ∈ tests, ∃ id, ∃ shot ∈ results.screenshotsOf test.testId,
        block.1 = ⟨.insertTest (test.row spec), .ok id⟩ ∧
          upload = ⟨.screenshot, shot.path, screenshotKey id spec shot.attemptIndex⟩ := by
  induction h with
  | done => exact fun block hblock => absurd hblock List.not_mem_nil
  | refused test rest cause =>
    intro block hblock upload hupload
    rw [List.mem_singleton.mp hblock] at hupload
    exact absurd hupload List.not_mem_nil
  | @made test rest id result blocks hrest ih =>
    intro block hblock upload hupload
    rcases List.mem_cons.mp hblock with rfl | hblock
    · have hshots : upload ∈ results.screenshotUploads test id spec := hupload
      rw [SpecResults.screenshotUploads] at hshots
      split at hshots
      · obtain ⟨shot, hshot, rfl⟩ := List.mem_map.mp hshots
        exact ⟨test, List.mem_cons_self, id, shot, hshot, rfl, rfl⟩
      · exact absurd hshots List.not_mem_nil
    · obtain ⟨other, hother, hrest⟩ := ih block hblock upload hupload
      exact ⟨other, List.mem_cons_of_mem _ hother, hrest⟩

/-- All that is uploaded at the end is the video, under the key of the spec. -/
theorem video_of_mem_closingUploads {results : SpecResults} {spec : SpecId}
    {result : Except HookError Unit} {upload : Upload}
    (h : upload ∈ results.closingUploads spec result) :
    ∃ path, upload = ⟨.video, path, videoKey spec⟩ := by
  cases result with
  | error cause => exact absurd h List.not_mem_nil
  | ok _ =>
    rw [SpecResults.closingUploads, SpecResults.videoUploads] at h
    split at h
    · split at h
      · exact ⟨_, List.mem_singleton.mp h⟩
      · exact absurd h List.not_mem_nil
    · exact absurd h List.not_mem_nil

/-- A spec that ends while it is remembered asks for its summary, and for its tests under it. -/
theorem justified_of_spec (name : String) (results : SpecResults) {spec : SpecId}
    (hspec : currentSpec past = some spec) (summary : SpecSummary)
    (answer : Except StoreError Unit) (blocks : List (Call × List Upload)) (closing : List Upload)
    (hrequests : ∀ block ∈ blocks, ∃ test : TestResult,
      block.1.request = .insertTest (test.row spec))
    (hkeyed : Keyed spec results blocks closing) (outcome : Outcome) (notices : List Notice) :
    Justified past
      ⟨.afterSpec name results, outcome,
        ⟨.completeSpec spec summary, answer⟩ :: blocks.map Prod.fst,
        blocks.flatMap Prod.snd ++ closing, notices⟩ := by
  have hcall : ∀ c ∈ (⟨.completeSpec spec summary, answer⟩ :: blocks.map Prod.fst : List Call),
      c.request.kind.event = .afterSpec ∧ c.request.Sourced past [] := by
    intro c hc
    rcases List.mem_cons.mp hc with rfl | hc
    · exact ⟨rfl, hspec⟩
    · obtain ⟨block, hblock, rfl⟩ := List.mem_map.mp hc
      obtain ⟨test, hrequest⟩ := hrequests block hblock
      rw [hrequest]
      exact ⟨rfl, hspec⟩
  -- nothing is uploaded between the summary and the first test
  have hkeyed' :
      Keyed spec results ((⟨.completeSpec spec summary, answer⟩, []) :: blocks) closing := by
    refine ⟨fun block hblock upload hupload => ?_, hkeyed.videos⟩
    rcases List.mem_cons.mp hblock with rfl | hblock
    · exact absurd hupload List.not_mem_nil
    · exact hkeyed.screenshots block hblock upload hupload
  exact ⟨fun c hc => (hcall c hc).1,
    sourced_of_kinds (fun hc => EventKind.noConfusion hc) (fun c hc => (hcall c hc).1)
      fun c hc => (hcall c hc).2,
    Or.inr ⟨name, results, spec, (⟨.completeSpec spec summary, answer⟩, []) :: blocks, closing, rfl,
      hspec, rfl, rfl, hkeyed'⟩,
    Step.needs_of_eq_some hspec ⟨_, List.mem_cons_self, rfl⟩⟩

/-- An end of a spec is justified and changes nothing that is remembered. -/
theorem Grounded.step_afterSpec (h : Grounded past r) (now : Timestamp) (name : String)
    (results : SpecResults) (s : σ) :
    Justified past (stepOf store identity now (.afterSpec name results) r s) ∧
      Grounded (past ++ [stepOf store identity now (.afterSpec name results) r s])
        (recordEvent store identity now (.afterSpec name results) r s).state := by
  -- the end of a spec leaves the recorder as it is, whatever it is answered
  have happend : ∀ t : Step, t.event = .afterSpec name results → Justified past t →
      Grounded (past ++ [t]) r := by
    intro t hevent hjustified
    have hkind : t.event.kind = .afterSpec := by
      rw [hevent]
      rfl
    refine h.append_of_ne ?_ hjustified.kinds rfl rfl ?_
    · rw [hkind]
      exact fun hc => EventKind.noConfusion hc
    · rw [currentSpec_append_of_ne (by rw [hkind]; exact fun hc => EventKind.noConfusion hc)]
      exact h.spec
  have hspec := h.spec
  rcases afterSpec_logged store r s name results with
    ⟨hnone, hreport⟩ | ⟨current, hcurrent, ⟨cause, s', hreport⟩ |
      ⟨result, blocks, s', hmade, hreport⟩⟩
  · obtain ⟨hstep, hstate⟩ := stepOf_of_logged store identity now (.afterSpec name results) hreport
    rw [hnone] at hspec
    rw [hstep, hstate]
    have hjustified : Justified past ⟨.afterSpec name results, .failed, [], [],
        [.hookFailed .afterSpec (.missingSpec name)]⟩ :=
      justified_of_calls_eq_nil rfl rfl (Step.needs_of_eq_none hspec.symm
        (fun c hc => absurd hc List.not_mem_nil) ⟨rfl, rfl, rfl⟩)
    exact ⟨hjustified, happend _ rfl hjustified⟩
  · obtain ⟨hstep, hstate⟩ := stepOf_of_logged store identity now (.afterSpec name results) hreport
    rw [hcurrent] at hspec
    rw [hstep, hstate]
    have hjustified := justified_of_spec name results hspec.symm (.ofStats results.stats)
      (.error cause) [] []
      (fun block hblock => absurd hblock List.not_mem_nil)
      ⟨fun block hblock => absurd hblock List.not_mem_nil,
        fun upload hupload => absurd hupload List.not_mem_nil⟩ .failed
      (mismatchNotice current.name name ++ [.hookFailed .afterSpec (.store cause)])
    exact ⟨hjustified, happend _ rfl hjustified⟩
  · obtain ⟨hstep, hstate⟩ := stepOf_of_logged store identity now (.afterSpec name results) hreport
    rw [hcurrent] at hspec
    rw [hstep, hstate]
    have hjustified := justified_of_spec name results hspec.symm (.ofStats results.stats) (.ok ())
      blocks (results.closingUploads current.id result) hmade.request_eq
      ⟨hmade.screenshots, fun upload hupload => video_of_mem_closingUploads hupload⟩
      (outcomeOf result) (mismatchNotice current.name name ++ failureNotice .afterSpec result)
    exact ⟨hjustified, happend _ rfl hjustified⟩

/-! ### The end of a run -/

/-- Each call of a step about a row is about this row. -/
theorem Performed.request_eq {α : Type} {missing : HookError} {q : α → Request} {id : Option α}
    {result : Except HookError Unit} {calls : List Call} (h : Performed missing q id result calls) :
    ∀ c ∈ calls, ∃ a, id = some a ∧ c.request = q a := by
  cases h with
  | missing => exact fun c hc => absurd hc List.not_mem_nil
  | failed a cause =>
    intro c hc
    rw [List.mem_singleton.mp hc]
    exact ⟨a, rfl, rfl⟩
  | done a answer =>
    intro c hc
    rw [List.mem_singleton.mp hc]
    exact ⟨a, rfl, rfl⟩

/-- A step that is performed makes calls of its own kind. -/
theorem Performed.kind_eq {α : Type} {missing : HookError} {q : α → Request} {id : Option α}
    {result : Except HookError Unit} {calls : List Call} {kind : RequestKind}
    (h : Performed missing q id result calls) (hkind : ∀ a, (q a).kind = kind) :
    ∀ c ∈ calls, c.request.kind = kind := by
  intro c hc
  obtain ⟨a, -, hrequest⟩ := h.request_eq c hc
  rw [hrequest]
  exact hkind a

/-- A step about a row that is there makes its call. -/
theorem Performed.exists_call {α : Type} {missing : HookError} {q : α → Request} {a : α}
    {result : Except HookError Unit} {calls : List Call}
    (h : Performed missing q (some a) result calls) : ∃ c ∈ calls, c.request = q a := by
  cases h with
  | failed a cause => exact ⟨_, List.mem_cons_self, rfl⟩
  | done a answer => exact ⟨_, List.mem_cons_self, rfl⟩

/-- A step about a row that is missing makes no call and fails. -/
theorem Performed.of_none {α : Type} {missing : HookError} {q : α → Request}
    {result : Except HookError Unit} {calls : List Call}
    (h : Performed missing q none result calls) : result = .error missing ∧ calls = [] := by
  cases h with
  | missing => exact ⟨rfl, rfl⟩

/-- A step that fails is noted, and fails the end of the run. -/
theorem closing_failed {matrix attempt close : Except HookError Unit} {cause : HookError}
    (h : .error cause ∈ [matrix, attempt, close]) :
    .hookFailed .afterRun cause ∈ closingNotices matrix attempt close ∧
      (if (closingNotices matrix attempt close).isEmpty then Outcome.recorded else .failed) =
        .failed := by
  have hmem : .hookFailed .afterRun cause ∈ closingNotices matrix attempt close :=
    List.mem_flatMap.mpr ⟨_, h, List.mem_cons_self⟩
  refine ⟨hmem, if_neg ?_⟩
  rw [List.isEmpty_iff]
  exact List.ne_nil_of_mem hmem

/-- A step about a row needs the row. -/
theorem Performed.needs {α : Type} {missing : HookError} {q : α → Request} {id : Option α}
    {result : Except HookError Unit} {calls : List Call} {kind : RequestKind} {fails : Prop}
    (h : Performed missing q id result calls) (hkind : ∀ a, (q a).kind = kind)
    (hcalls : ∀ c ∈ calls, c ∈ t.calls)
    (hothers : ∀ c ∈ t.calls, c ∈ calls ∨ c.request.kind ≠ kind)
    (hfails : result = .error missing → fails) : t.Needs kind id fails := by
  cases id with
  | none =>
    obtain ⟨hresult, hnil⟩ := h.of_none
    refine Step.needs_of_eq_none rfl (fun c hc => ?_) (hfails hresult)
    rcases hothers c hc with hc | hne
    · rw [hnil] at hc
      exact absurd hc List.not_mem_nil
    · exact hne
  | some a =>
    obtain ⟨c, hc, hrequest⟩ := h.exists_call
    refine Step.needs_of_eq_some rfl ⟨c, hcalls c hc, ?_⟩
    rw [hrequest]
    exact hkind a

/-- An end of a run is justified, and the ids that it uses stay remembered. -/
theorem Grounded.step_afterRun (h : Grounded past r) (now : Timestamp) (details : Option Json)
    (s : σ) :
    Justified past (stepOf store identity now (.afterRun details) r s) ∧
      Grounded (past ++ [stepOf store identity now (.afterRun details) r s])
        (recordEvent store identity now (.afterRun details) r s).state := by
  -- each of the three steps makes its own calls, so a call tells by its kind which step made it
  obtain ⟨matrix, attempt, close, calls₁, calls₂, calls₃, s', hmatrix, hattempt, hclose, hreport⟩ :=
    afterRun_logged store now r s
  obtain ⟨hstep, hstate⟩ := stepOf_of_logged store identity now (.afterRun details) hreport
  rw [hstep, hstate]
  have hsplit : ∀ c ∈ calls₁ ++ calls₂ ++ calls₃, c ∈ calls₁ ∨ c ∈ calls₂ ∨ c ∈ calls₃ := by
    intro c hc
    rwa [List.append_assoc, List.mem_append, List.mem_append] at hc
  have hcall : ∀ c ∈ calls₁ ++ calls₂ ++ calls₃,
      c.request.kind.event = .afterRun ∧ c.request.Sourced past [] := by
    intro c hc
    rcases hsplit c hc with hc | hc | hc
    · obtain ⟨id, hid, hrequest⟩ := hmatrix.request_eq c hc
      rw [hrequest, Request.Sourced, List.append_nil, ← h.matrixId]
      exact ⟨rfl, hid⟩
    · obtain ⟨id, hid, hrequest⟩ := hattempt.request_eq c hc
      rw [hrequest, Request.Sourced, List.append_nil, ← h.attemptId]
      exact ⟨rfl, hid⟩
    · obtain ⟨-, -, hrequest⟩ := hclose.request_eq c hc
      rw [hrequest]
      exact ⟨rfl, trivial⟩
  have hmatrices : ∀ c ∈ calls₁, c.request.kind = .finishMatrix := hmatrix.kind_eq fun _ => rfl
  have hattempts : ∀ c ∈ calls₂, c.request.kind = .finishAttempt := hattempt.kind_eq fun _ => rfl
  have hcloses : ∀ c ∈ calls₃, c.request.kind = .close := hclose.kind_eq fun _ => rfl
  refine ⟨⟨fun c hc => (hcall c hc).1, sourced_of_kinds (fun hc => EventKind.noConfusion hc)
    (fun c hc => (hcall c hc).1) fun c hc => (hcall c hc).2, Or.inl rfl, ⟨?_, ?_⟩⟩,
    h.append_of_ne (fun hc => EventKind.noConfusion hc) (fun c hc => (hcall c hc).1) rfl rfl ?_⟩
  · rw [← h.matrixId]
    refine hmatrix.needs (fun _ => rfl) (fun c hc => ?_) (fun c hc => ?_) fun hfailed => ?_
    · exact List.mem_append_left _ (List.mem_append_left _ hc)
    · rcases hsplit c hc with hc | hc | hc
      · exact Or.inl hc
      · refine Or.inr ?_
        rw [hattempts c hc]
        exact fun hkind => RequestKind.noConfusion hkind
      · refine Or.inr ?_
        rw [hcloses c hc]
        exact fun hkind => RequestKind.noConfusion hkind
    · exact closing_failed (by rw [hfailed]; exact List.mem_cons_self)
  · rw [← h.attemptId]
    refine hattempt.needs (fun _ => rfl) (fun c hc => ?_) (fun c hc => ?_) fun hfailed => ?_
    · exact List.mem_append_left _ (List.mem_append_right _ hc)
    · rcases hsplit c hc with hc | hc | hc
      · refine Or.inr ?_
        rw [hmatrices c hc]
        exact fun hkind => RequestKind.noConfusion hkind
      · exact Or.inl hc
      · refine Or.inr ?_
        rw [hcloses c hc]
        exact fun hkind => RequestKind.noConfusion hkind
    · exact closing_failed (by rw [hfailed]; exact List.mem_cons_of_mem _ List.mem_cons_self)
  · rw [currentSpec_append_of_ne (fun hc => EventKind.noConfusion hc)]
    exact h.spec

/-! ## Whole runs -/

/-- **One event makes one justified step**, and the recorder goes on remembering what it was
answered last. -/
theorem Grounded.step (h : Grounded past r) (now : Timestamp) (e : Event) (s : σ) :
    Justified past (stepOf store identity now e r s) ∧
      Grounded (past ++ [stepOf store identity now e r s])
        (recordEvent store identity now e r s).state := by
  cases e with
  | beforeRun browser => exact h.step_beforeRun store identity now browser s
  | beforeSpec name => exact h.step_beforeSpec store identity now name s
  | afterSpec name results => exact h.step_afterSpec store identity now name results s
  | afterRun details => exact h.step_afterRun store identity now details s

theorem grounded_start : Grounded [] RunState.initial := ⟨rfl, rfl, rfl⟩

/-- From where it remembers what it was answered last, a recorder makes justified steps only. -/
theorem Grounded.justified {calls : List (Timestamp × Event)} {s : σ} {between rest : List Step}
    (h : Grounded past r) (hsteps : stepsOf store identity calls r s = between ++ t :: rest) :
    Justified (past ++ between) t := by
  -- the steps between move to the past one by one, until `t` is the next
  induction calls generalizing past r s between with
  | nil => exact absurd (List.append_eq_nil_iff.mp hsteps.symm).2 (List.cons_ne_nil _ _)
  | cons call others ih =>
    obtain ⟨now, e⟩ := call
    obtain ⟨hjustified, hgrounded⟩ := h.step store identity now e s
    rw [stepsOf] at hsteps
    cases between with
    | nil =>
      injection hsteps with hhead _
      rw [← hhead, List.append_nil]
      exact hjustified
    | cons first between =>
      injection hsteps with hhead htail
      have hrest := ih hgrounded htail
      rw [hhead, List.append_assoc] at hrest
      exact hrest

/-- **A recorder passes on only what it was given.** Whatever the store answers and in whatever
order a new recorder is given events, every step is justified by the steps before it: each
identifier in a request or a key is the one that the last call of its kind was answered with, and
where there is none the request is not made and the event, or its step, fails. -/
theorem justified_of_stepsOf (store : Store σ) (identity : Identity)
    (events : List (Timestamp × Event)) (s : σ) (past : List Step) (t : Step) (rest : List Step)
    (h : stepsOf store identity events .initial s = past ++ t :: rest) : Justified past t :=
  grounded_start.justified store identity h

/-- The results of a spec with one test, which failed, and a screenshot of it. -/
def failedTest : SpecResults :=
  ⟨⟨1, 0, 1, 0, 0⟩, [⟨"r1", ["A", "b"], "failed", [⟨"failed", []⟩]⟩], [⟨"a.png", "r1", 0⟩], none⟩

/-- The third step of a run on tables: the screenshot is kept under the identifiers that the tables
gave to the spec in the second step and to the test in this one. -/
theorem justified_of_stepsOf_failedTest :
    ∃ past t, stepsOf Tables.store .sample
        [(⟨0, 0⟩, .beforeRun "chrome"), (⟨0, 0⟩, .beforeSpec "a.ts"),
          (⟨0, 0⟩, .afterSpec "a.ts" failedTest)] .initial .empty = past ++ [t] ∧
      currentSpec past = some ⟨3⟩ ∧ t.uploads = [⟨.screenshot, "a.png", "4_3_1"⟩] ∧
      Justified past t := by
  refine ⟨[_, _], _, rfl, ?_, ?_, justified_of_stepsOf Tables.store .sample
    [(⟨0, 0⟩, .beforeRun "chrome"), (⟨0, 0⟩, .beforeSpec "a.ts"),
      (⟨0, 0⟩, .afterSpec "a.ts" failedTest)] .empty _ _ [] rfl⟩
  · decide +kernel
  · decide +kernel

end RunJournal
