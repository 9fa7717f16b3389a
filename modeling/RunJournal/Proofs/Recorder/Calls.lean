import RunJournal.Proofs.Recorder.View

/-!
# The calls of a recorder

What a recorder asks of its store, and what it is answered. `Store.logged` keeps a log of both next
to any store, and `recordEvent_logged` says that a recorder does not notice.

For each of the four events one statement lists everything that it can do, call by call:
`beforeRun_logged`, `beforeSpec_logged`, `afterSpec_logged` and `afterRun_logged`. The tests of a
spec (`TestsMade`) and the steps at the end of a run (`Performed`) have relations of their own.
Where it does not matter which calls are made, `recordEvent_induction` is enough: an event keeps
whatever every request that is made for it keeps.
-/

namespace RunJournal

/-- The event for which requests of a kind are made. -/
def RequestKind.event : RequestKind → EventKind
  | .upsertAttempt => .beforeRun
  | .upsertMatrix => .beforeRun
  | .insertSpec => .beforeSpec
  | .completeSpec => .afterSpec
  | .insertTest => .afterSpec
  | .finishMatrix => .afterRun
  | .finishAttempt => .afterRun
  | .close => .afterRun

/-- A request with its answer. -/
structure Call where
  request : Request
  answer : Except StoreError request.Answer

/-- What calls say last of what `answer?` reads off some of them: an identifier that was given, or a
value that was set. -/
def lastAnswer {α : Type} (answer? : Call → Option α) (calls : List Call) : Option α :=
  (calls.filterMap answer?).getLast?

/-- The last answer is looked for in the second part first. -/
theorem lastAnswer_append {α : Type} (answer? : Call → Option α) (xs ys : List Call) :
    lastAnswer answer? (xs ++ ys) = (lastAnswer answer? ys).or (lastAnswer answer? xs) := by
  rw [lastAnswer, List.filterMap_append, List.getLast?_append]
  rfl

theorem lastAnswer_eq_none {α : Type} {answer? : Call → Option α} {calls : List Call}
    (h : ∀ c ∈ calls, answer? c = none) : lastAnswer answer? calls = none := by
  rw [lastAnswer, List.filterMap_eq_nil_iff.mpr h]
  rfl

/-- One call more is the last one, if it says anything. -/
theorem lastAnswer_concat {α : Type} (answer? : Call → Option α) (calls : List Call) (c : Call) :
    lastAnswer answer? (calls ++ [c]) = (answer? c).or (lastAnswer answer? calls) := by
  rw [lastAnswer_append, lastAnswer]
  cases h : answer? c <;> simp [h]

variable {σ : Type} (store : Store σ)

/-- The store with a log of its calls, in order. -/
def Store.logged : Store (σ × List Call) := fun q (s, log) =>
  let (answer, s) := store q s
  (answer, s, log ++ [⟨q, answer⟩])

/-- A report without the log. -/
def HookReport.unlogged (report : HookReport (σ × List Call)) : HookReport σ :=
  ⟨report.outcome, report.state, report.store.1, report.uploads, report.notices⟩

variable {store}

theorem Store.logged_of_eq {q : Request} {answer : Except StoreError q.Answer} {s s' : σ}
    (h : store q s = (answer, s')) (log : List Call) :
    store.logged q (s, log) = (answer, s', log ++ [⟨q, answer⟩]) := by
  rw [Store.logged, h]

variable (store)

theorem Store.logged_answersAs : store.logged.AnswersAs store Prod.fst := fun _ _ => rfl

/-! ## What every request keeps -/

section Induction

variable {store} {motive : σ → Prop} {p : Request → Prop}
  (hstep : ∀ q s, p q → motive s → motive (store q s).2)
include hstep

/-- What every request keeps is kept by one whose answer is known. -/
theorem motive_of_answer {q : Request} (hq : p q) {answer : Except StoreError q.Answer} {s s' : σ}
    (hanswer : store q s = (answer, s')) (h : motive s) : motive s' := by
  have hnext := hstep q s hq h
  rw [hanswer] at hnext
  exact hnext

/-- What the insertion of a test keeps is kept by a list of tests, up to the one that fails. -/
theorem recordTests_induction (hp : ∀ row, p (.insertTest row)) (results : SpecResults)
    (spec : SpecId) (tests : List TestResult) {s : σ} (h : motive s) :
    motive (recordTests store results spec tests s).2.2 := by
  induction tests generalizing s with
  | nil => exact h
  | cons test rest ih =>
    rw [recordTests]
    rcases hinsert : store (.insertTest (test.row spec)) s with ⟨answer, s₁⟩
    have h₁ := motive_of_answer hstep (hp (test.row spec)) hinsert h
    cases answer with
    | error cause => exact h₁
    | ok id => exact ih h₁

/-- What a request keeps is kept when it is performed. -/
theorem perform_induction {q : Request} (hq : p q) {s : σ} (h : motive s) :
    motive (perform store q s).2 := by
  rw [perform]
  rcases hcall : store q s with ⟨answer, s₁⟩
  have h₁ := motive_of_answer hstep hq hcall h
  cases answer <;> exact h₁

theorem performOn_induction {α : Type} {q : α → Request} (hq : ∀ a, p (q a)) (id : Option α)
    (missing : HookError) {s : σ} (h : motive s) :
    motive (performOn store id missing q s).2 := by
  cases id with
  | none => exact h
  | some a => exact perform_induction hstep (hq a) h

end Induction

variable {store} in
/-- **What every request for an event keeps, the event keeps.** -/
theorem recordEvent_induction {motive : σ → Prop} {e : Event}
    (hstep : ∀ q s, q.kind.event = e.kind → motive s → motive (store q s).2) (identity : Identity)
    (now : Timestamp) (r : RunState) {s : σ} (h : motive s) :
    motive (recordEvent store identity now e r s).store := by
  -- each event makes its requests one after the other, and stops at the first failure
  cases e with
  | beforeRun browser =>
    rw [recordEvent, beforeRun]
    rcases hattempt : store (.upsertAttempt (identity.attemptRow browser)) s with ⟨answer, s₁⟩
    have h₁ := motive_of_answer hstep rfl hattempt h
    cases answer with
    | error cause => exact h₁
    | ok attempt =>
      rcases hmatrix : store (.upsertMatrix (identity.matrixRow attempt)) s₁ with ⟨answer, s₂⟩
      have h₂ := motive_of_answer hstep rfl hmatrix h₁
      simp only [hmatrix]
      cases answer <;> exact h₂
  | beforeSpec name =>
    rw [recordEvent, beforeSpec]
    cases r.matrixId with
    | none => exact h
    | some matrix =>
      rcases hinsert : store (.insertSpec name matrix) s with ⟨answer, s₁⟩
      have h₁ := motive_of_answer hstep rfl hinsert h
      simp only [hinsert]
      cases answer <;> exact h₁
  | afterSpec name results =>
    rw [recordEvent, afterSpec]
    cases r.spec with
    | none => exact h
    | some current =>
      rcases hcomplete : store (.completeSpec current.id (.ofStats results.stats)) s
        with ⟨answer, s₁⟩
      have h₁ := motive_of_answer hstep rfl hcomplete h
      simp only [hcomplete]
      cases answer with
      | error cause => exact h₁
      | ok answer =>
        exact recordTests_induction hstep (fun _ => rfl) results current.id results.tests h₁
  | afterRun details =>
    -- the end of a run makes all three, failed or not
    have hmatrix := performOn_induction hstep (q := .finishMatrix) (fun _ => rfl) r.matrixId
      .missingMatrix h
    have hattempt := performOn_induction hstep (q := (.finishAttempt · now)) (fun _ => rfl)
      r.attemptId .missingAttempt hmatrix
    exact perform_induction hstep rfl hattempt

/-! ## Steps of an event -/

/-- What the tests of a spec come to: the calls made for them up to the first that is refused, each
with the uploads that are submitted after it. -/
inductive TestsMade (results : SpecResults) (spec : SpecId) :
    List TestResult → Except HookError Unit → List (Call × List Upload) → Prop where
  | done : TestsMade results spec [] (.ok ()) []
  | refused (test : TestResult) (rest : List TestResult) (cause : StoreError) :
      TestsMade results spec (test :: rest) (.error (.store cause))
        [(⟨.insertTest (test.row spec), .error cause⟩, [])]
  | made {test : TestResult} {rest : List TestResult} (id : TestId) {result : Except HookError Unit}
      {blocks : List (Call × List Upload)} (h : TestsMade results spec rest result blocks) :
      TestsMade results spec (test :: rest) result
        ((⟨.insertTest (test.row spec), .ok id⟩, results.screenshotUploads test id spec) :: blocks)

/-- What a step about a row that may be missing comes to, and the call made for it. -/
inductive Performed {α : Type} (missing : HookError) (q : α → Request) :
    Option α → Except HookError Unit → List Call → Prop where
  | missing : Performed missing q none (.error missing) []
  | failed (id : α) (cause : StoreError) :
      Performed missing q (some id) (.error (.store cause)) [⟨q id, .error cause⟩]
  | done (id : α) (answer : (q id).Answer) :
      Performed missing q (some id) (.ok ()) [⟨q id, .ok answer⟩]

/-- The tests of a spec with a log. -/
theorem recordTests_logged (results : SpecResults) (spec : SpecId) (tests : List TestResult)
    (s : σ) (log : List Call) :
    ∃ result blocks s', TestsMade results spec tests result blocks ∧
      recordTests store.logged results spec tests (s, log) =
        (result, blocks.flatMap Prod.snd, s', log ++ blocks.map Prod.fst) := by
  induction tests generalizing s log with
  | nil =>
    refine ⟨.ok (), [], s, .done, ?_⟩
    rw [List.map_nil, List.append_nil]
    rfl
  | cons test rest ih =>
    -- the log that the rest starts from already holds the call for this test
    rw [recordTests]
    rcases hinsert : store (.insertTest (test.row spec)) s with ⟨answer, s₁⟩
    rw [Store.logged_of_eq hinsert]
    cases answer with
    | error cause => exact ⟨_, _, s₁, .refused test rest cause, rfl⟩
    | ok id =>
      obtain ⟨result, blocks, s', hmade, hlogged⟩ :=
        ih s₁ (log ++ [⟨.insertTest (test.row spec), .ok id⟩])
      refine ⟨result, _, s', .made id hmade, ?_⟩
      simp only [hlogged, List.flatMap_cons, List.map_cons, List.append_assoc,
        List.singleton_append]

/-- A step about a row with a log. -/
theorem performOn_logged {α : Type} (id : Option α) (missing : HookError) (q : α → Request)
    (s : σ) (log : List Call) :
    ∃ result calls s', Performed missing q id result calls ∧
      performOn store.logged id missing q (s, log) = (result, s', log ++ calls) := by
  cases id with
  | none =>
    refine ⟨.error missing, [], s, .missing, ?_⟩
    rw [List.append_nil]
    rfl
  | some id =>
    rw [performOn, perform]
    rcases hcall : store (q id) s with ⟨answer, s₁⟩
    rw [Store.logged_of_eq hcall]
    cases answer with
    | error cause => exact ⟨_, _, s₁, .failed id cause, rfl⟩
    | ok answer => exact ⟨_, _, s₁, .done id answer, rfl⟩

/-! ## Events -/

variable (identity : Identity) (now : Timestamp) (r : RunState) (s : σ)

/-- Everything that the start of a run can do. -/
theorem beforeRun_logged (browser : String) :
    (∃ cause s', beforeRun store.logged identity browser r (s, []) =
      ⟨.failed, { r with browser := some browser },
        (s', [⟨.upsertAttempt (identity.attemptRow browser), .error cause⟩]), [],
        [.hookFailed .beforeRun (.store cause)]⟩) ∨
    (∃ attempt cause s', beforeRun store.logged identity browser r (s, []) =
      ⟨.failed, { r with browser := some browser, attemptId := some attempt },
        (s', [⟨.upsertAttempt (identity.attemptRow browser), .ok attempt⟩,
          ⟨.upsertMatrix (identity.matrixRow attempt), .error cause⟩]), [],
        [.hookFailed .beforeRun (.store cause)]⟩) ∨
    (∃ attempt matrix s', beforeRun store.logged identity browser r (s, []) =
      ⟨.recorded,
        { r with browser := some browser, attemptId := some attempt, matrixId := some matrix },
        (s', [⟨.upsertAttempt (identity.attemptRow browser), .ok attempt⟩,
          ⟨.upsertMatrix (identity.matrixRow attempt), .ok matrix⟩]), [], []⟩) := by
  rw [beforeRun]
  rcases hattempt : store (.upsertAttempt (identity.attemptRow browser)) s with ⟨answer, s₁⟩
  rw [Store.logged_of_eq hattempt]
  cases answer with
  | error cause => exact Or.inl ⟨cause, s₁, rfl⟩
  | ok attempt =>
    rcases hmatrix : store (.upsertMatrix (identity.matrixRow attempt)) s₁ with ⟨answer, s₂⟩
    simp only [Store.logged_of_eq hmatrix]
    cases answer with
    | error cause => exact Or.inr (Or.inl ⟨attempt, cause, s₂, rfl⟩)
    | ok matrix => exact Or.inr (Or.inr ⟨attempt, matrix, s₂, rfl⟩)

/-- Everything that the start of a spec can do. -/
theorem beforeSpec_logged (name : String) :
    (r.matrixId = none ∧ beforeSpec store.logged name r (s, []) =
      ⟨.failed, { r with spec := none }, (s, []), [], [.hookFailed .beforeSpec .missingMatrix]⟩) ∨
    ∃ matrix, r.matrixId = some matrix ∧
      ((∃ cause s', beforeSpec store.logged name r (s, []) =
        ⟨.failed, { r with spec := none }, (s', [⟨.insertSpec name matrix, .error cause⟩]), [],
          [.hookFailed .beforeSpec (.store cause)]⟩) ∨
      (∃ id s', beforeSpec store.logged name r (s, []) =
        ⟨.recorded, { r with spec := some ⟨name, id⟩ }, (s', [⟨.insertSpec name matrix, .ok id⟩]),
          [], []⟩)) := by
  cases hmatrix : r.matrixId with
  | none =>
    refine Or.inl ⟨rfl, ?_⟩
    simp only [beforeSpec, hmatrix]
  | some matrix =>
    refine Or.inr ⟨matrix, rfl, ?_⟩
    rcases hinsert : store (.insertSpec name matrix) s with ⟨answer, s₁⟩
    simp only [beforeSpec, hmatrix, Store.logged_of_eq hinsert]
    cases answer with
    | error cause => exact Or.inl ⟨cause, s₁, rfl⟩
    | ok id => exact Or.inr ⟨id, s₁, rfl⟩

/-- The uploads for the spec as a whole; none when a test was refused. -/
def SpecResults.closingUploads (results : SpecResults) (spec : SpecId) :
    Except HookError Unit → List Upload
  | .ok _ => results.videoUploads spec
  | .error _ => []

/-- Everything that the end of a spec can do. -/
theorem afterSpec_logged (name : String) (results : SpecResults) :
    (r.spec = none ∧ afterSpec store.logged name results r (s, []) =
      ⟨.failed, r, (s, []), [], [.hookFailed .afterSpec (.missingSpec name)]⟩) ∨
    ∃ current, r.spec = some current ∧
      ((∃ cause s', afterSpec store.logged name results r (s, []) =
        ⟨.failed, r, (s', [⟨.completeSpec current.id (.ofStats results.stats), .error cause⟩]), [],
          mismatchNotice current.name name ++ [.hookFailed .afterSpec (.store cause)]⟩) ∨
      (∃ result blocks s', TestsMade results current.id results.tests result blocks ∧
        afterSpec store.logged name results r (s, []) =
          ⟨outcomeOf result, r,
            (s', ⟨.completeSpec current.id (.ofStats results.stats), .ok ()⟩ ::
              blocks.map Prod.fst),
            blocks.flatMap Prod.snd ++ results.closingUploads current.id result,
            mismatchNotice current.name name ++ failureNotice .afterSpec result⟩)) := by
  cases hspec : r.spec with
  | none =>
    refine Or.inl ⟨rfl, ?_⟩
    simp only [afterSpec, hspec]
  | some current =>
    refine Or.inr ⟨current, rfl, ?_⟩
    rcases hcomplete : store (.completeSpec current.id (.ofStats results.stats)) s with ⟨answer, s₁⟩
    simp only [afterSpec, hspec, Store.logged_of_eq hcomplete]
    cases answer with
    | error cause => exact Or.inl ⟨cause, s₁, rfl⟩
    | ok answer =>
      obtain ⟨result, blocks, s', hmade, hlogged⟩ := recordTests_logged store results current.id
        results.tests s₁ [⟨.completeSpec current.id (.ofStats results.stats), .ok ()⟩]
      refine Or.inr ⟨result, blocks, s', hmade, ?_⟩
      simp only [List.nil_append, hlogged]
      cases result with
      | ok _ => rfl
      | error _ => rfl

/-- The notices of an end of a run, by what its three steps come to. -/
def closingNotices (matrix attempt close : Except HookError Unit) : List Notice :=
  [matrix, attempt, close].flatMap (failureNotice .afterRun)

/-- Everything that the end of a run can do. -/
theorem afterRun_logged :
    ∃ matrix attempt close calls₁ calls₂ calls₃ s',
      Performed .missingMatrix .finishMatrix r.matrixId matrix calls₁ ∧
      Performed .missingAttempt (.finishAttempt · now) r.attemptId attempt calls₂ ∧
      Performed .missingAttempt (fun _ : Unit => .close) (some ()) close calls₃ ∧
      afterRun store.logged now r (s, []) =
        ⟨if (closingNotices matrix attempt close).isEmpty then .recorded else .failed,
          { r with finished := true }, (s', calls₁ ++ calls₂ ++ calls₃), [],
          closingNotices matrix attempt close⟩ := by
  -- closing the store is a step about a row that is always there
  obtain ⟨matrix, calls₁, s₁, hmatrix, hlogged₁⟩ :=
    performOn_logged store r.matrixId .missingMatrix .finishMatrix s []
  obtain ⟨attempt, calls₂, s₂, hattempt, hlogged₂⟩ :=
    performOn_logged store r.attemptId .missingAttempt (.finishAttempt · now) s₁ calls₁
  obtain ⟨close, calls₃, s₃, hclose, hlogged₃⟩ :=
    performOn_logged store (some ()) .missingAttempt (fun _ => .close) s₂ (calls₁ ++ calls₂)
  refine ⟨matrix, attempt, close, calls₁, calls₂, calls₃, s₃, hmatrix, hattempt, hclose, ?_⟩
  rw [performOn] at hlogged₃
  rw [List.nil_append] at hlogged₁
  simp only [afterRun, hlogged₁, hlogged₂, hlogged₃]
  rfl

/-- **A recorder does not notice the log of its store.** -/
theorem recordEvent_logged (e : Event) (log : List Call) :
    (recordEvent store.logged identity now e r (s, log)).unlogged =
      recordEvent store identity now e r s :=
  (recordEvent_through store.logged_answersAs identity now e r (s, log)).symm

end RunJournal
