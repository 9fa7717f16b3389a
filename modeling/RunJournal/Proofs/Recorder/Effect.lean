import RunJournal.Proofs.Recorder.Course
import RunJournal.Store.Tables

/-!
# What events do to tables in memory

The effect of each event on tables that are open, one statement for each kind of event. While the
tables are open and have the rows that a recorder remembers, nothing fails, so an effect is an
equation: `beforeSpec_open` and `afterSpec_open` give the tables that are left behind in terms of
`Tables.addSpec`, `Tables.setSummary` and `Tables.addTests`. What follows about whole runs uses
these statements and does not look into requests again.
-/

namespace RunJournal

namespace Tables

/-- The tables with one more spec. -/
def addSpec (name : String) (matrix : MatrixId) (t : Tables) : Tables :=
  { t with specs := t.specs ++ [⟨t.freshId, name, matrix, none⟩], lastId := t.lastId + 1 }

/-- The tables with the summary of a spec. -/
def setSummary (spec : SpecId) (summary : SpecSummary) (t : Tables) : Tables :=
  { t with specs := t.specs.map fun r =>
      if r.id = spec then { r with summary := some summary } else r }

/-- Rows for the tests of a spec, with identifiers that count on from `id`. -/
def testRows (spec : SpecId) : Nat → List TestResult → List TestRow
  | _, [] => []
  | id, test :: rest => ⟨⟨id⟩, test.row spec⟩ :: testRows spec (id + 1) rest

/-- The tables with rows for the tests of a spec. -/
def addTests (spec : SpecId) (tests : List TestResult) (t : Tables) : Tables :=
  { t with
    tests := t.tests ++ testRows spec (t.lastId + 1) tests
    lastId := t.lastId + tests.length }

/-- The tables with a shard marked as done. -/
def markDone (matrix : MatrixId) (t : Tables) : Tables :=
  { t with matrices := t.matrices.map fun r =>
      if r.id = matrix then { r with values := { r.values with status := .done } } else r }

/-- The tables with the end of an attempt. -/
def setEndTime (attempt : AttemptId) (endTime : Timestamp) (t : Tables) : Tables :=
  { t with attempts := t.attempts.map fun r =>
      if r.id = attempt then { r with endTime := some endTime } else r }

/-- The tables after the last request that they answer. -/
def shut (t : Tables) : Tables := { t with closed := true }

variable {t : Tables}

/-- Tables that are open answer a request. -/
theorem store_open (h : t.closed = false) (q : Request) : store q t = serve q t := by
  rw [store, h]
  rfl

/-- Tables that were closed answer none. -/
theorem store_closed (h : t.closed = true) (q : Request) : store q t = (.error .closed, t) := by
  rw [store, if_pos h]

/-- Tests are added from the first to the last, each with the next id. -/
theorem addTests_cons (spec : SpecId) (test : TestResult) (rest : List TestResult) (t : Tables) :
    t.addTests spec (test :: rest) =
      ({ t with tests := t.tests ++ [⟨t.freshId, test.row spec⟩], lastId := t.lastId + 1 } :
        Tables).addTests spec rest := by
  have hlast : t.lastId + (rest.length + 1) = t.lastId + 1 + rest.length := by omega
  simp only [addTests, testRows, freshId, List.length_cons, hlast, List.append_assoc,
    List.singleton_append]

/-- The rows for the tests of a spec have the values of the tests, in their order. -/
theorem map_values_testRows (spec : SpecId) (id : Nat) (tests : List TestResult) :
    (testRows spec id tests).map TestRow.values = tests.map (·.row spec) := by
  induction tests generalizing id with
  | nil => rfl
  | cons test rest ih => exact congrArg (test.row spec :: ·) (ih (id + 1))

/-- All rows for the tests of a spec are of that spec. -/
theorem specId_of_mem_testRows {spec : SpecId} {id : Nat} {tests : List TestResult}
    {row : TestRow} (h : row ∈ testRows spec id tests) : row.values.specId = spec := by
  have hvalues := List.mem_map_of_mem (f := TestRow.values) h
  rw [map_values_testRows] at hvalues
  obtain ⟨test, -, htest⟩ := List.mem_map.mp hvalues
  rw [← htest]
  rfl

/-- No spec has an identifier that is still to be given. -/
def SpecsBounded (t : Tables) : Prop := ∀ row ∈ t.specs, row.id.value ≤ t.lastId

/-- No spec has the id that comes next. -/
theorem SpecsBounded.id_ne_freshId (h : t.SpecsBounded) {row : SpecRow} (hrow : row ∈ t.specs) :
    row.id ≠ t.freshId := by
  have hle := h row hrow
  intro hid
  rw [hid, freshId] at hle
  simp only at hle
  omega

/-- A new spec stays below the id that comes next. -/
theorem SpecsBounded.addSpec (h : t.SpecsBounded) (name : String) (matrix : MatrixId) :
    (t.addSpec name matrix).SpecsBounded := by
  intro row hrow
  show row.id.value ≤ ((t.lastId + 1 : Nat) : Int)
  rcases List.mem_append.mp hrow with hold | hnew
  · have hle := h row hold
    omega
  · rw [List.mem_singleton.mp hnew]
    exact Int.le_refl _

/-- A summary changes no identifier. -/
theorem id_of_mem_setSummary {spec : SpecId} {summary : SpecSummary} {row : SpecRow}
    (hrow : row ∈ (t.setSummary spec summary).specs) : ∃ old ∈ t.specs, old.id = row.id := by
  obtain ⟨old, hmem, hold⟩ := List.mem_map.mp hrow
  refine ⟨old, hmem, ?_⟩
  split at hold
  · rw [← hold]
  · rw [← hold]

/-- The end of a spec brings no new spec, so the bound stays. -/
theorem SpecsBounded.setSummary_addTests (h : t.SpecsBounded) (spec : SpecId)
    (summary : SpecSummary) (tests : List TestResult) :
    ((t.setSummary spec summary).addTests spec tests).SpecsBounded := by
  intro row hrow
  show row.id.value ≤ ((t.lastId + tests.length : Nat) : Int)
  obtain ⟨old, hold, hid⟩ := id_of_mem_setSummary hrow
  have hle := h old hold
  rw [hid] at hle
  omega

/-- A spec that was just made gets its summary, and no other spec does. -/
theorem specs_setSummary_addSpec (h : t.SpecsBounded) (name : String) (matrix : MatrixId)
    (summary : SpecSummary) :
    ((t.addSpec name matrix).setSummary t.freshId summary).specs =
      t.specs ++ [⟨t.freshId, name, matrix, some summary⟩] := by
  have hold : t.specs.map (fun r =>
      if r.id = t.freshId then { r with summary := some summary } else r) = t.specs := by
    rw [List.map_congr_left (g := id), List.map_id]
    intro row hrow
    rw [if_neg (h.id_ne_freshId hrow)]
    rfl
  show (t.specs ++ [_]).map _ = _
  rw [List.map_append, hold]
  simp

@[simp] theorem hasSpec_setSummary (spec id : SpecId) (summary : SpecSummary) (t : Tables) :
    (t.setSummary spec summary).hasSpec id = t.hasSpec id := by
  simp only [hasSpec, setSummary, List.any_map]
  congr 1
  funext row
  simp only [Function.comp]
  split
  · rfl
  · rfl

theorem hasSpec_addSpec (name : String) (matrix : MatrixId) (t : Tables) :
    (t.addSpec name matrix).hasSpec t.freshId = true := by
  simp [hasSpec, addSpec]

/-- The tests are made one after the other, and none is refused. -/
theorem recordTests_open (results : SpecResults) (spec : SpecId) (tests : List TestResult)
    (hopen : t.closed = false) (hspec : t.hasSpec spec = true) :
    ∃ uploads, recordTests store results spec tests t =
      (.ok (), uploads, t.addTests spec tests) := by
  induction tests generalizing t with
  | nil =>
    refine ⟨[], ?_⟩
    rw [recordTests]
    simp [addTests, testRows]
  | cons test rest ih =>
    have hanswer : store (.insertTest (test.row spec)) t = (.ok t.freshId, { t with
        tests := t.tests ++ [⟨t.freshId, test.row spec⟩], lastId := t.lastId + 1 }) := by
      rw [store_open hopen]
      show insertTest _ _ = _
      rw [insertTest, if_pos (show t.hasSpec (test.row spec).specId = true from hspec)]
    obtain ⟨uploads, hrest⟩ := ih
      (t := { t with tests := t.tests ++ [⟨t.freshId, test.row spec⟩], lastId := t.lastId + 1 })
      hopen hspec
    refine ⟨results.screenshotUploads test t.freshId spec ++ uploads, ?_⟩
    rw [recordTests, hanswer, addTests_cons]
    simp only [hrest]

/-- Open tables that differ in attempts and shards only, and may have given identifiers since. -/
structure SameSpecs (t t' : Tables) : Prop where
  specs : t'.specs = t.specs
  tests : t'.tests = t.tests
  isOpen : t'.closed = false
  lastId : t.lastId ≤ t'.lastId

/-- An attempt is found or made. -/
theorem store_upsertAttempt_open (row : NewAttempt) (hopen : t.closed = false) :
    ∃ attempt t', store (.upsertAttempt row) t = (.ok attempt, t') ∧
      t'.hasAttempt attempt = true ∧ SameSpecs t t' := by
  rw [store_open hopen]
  show ∃ attempt t', upsertAttempt row t = (.ok attempt, t') ∧ _
  rw [upsertAttempt]
  cases hfind : t.findAttempt row with
  | some found =>
    have hmem := List.mem_of_find?_eq_some hfind
    refine ⟨found.id, t, rfl, ?_, rfl, rfl, hopen, Nat.le_refl _⟩
    exact List.any_eq_true.mpr ⟨found, hmem, beq_self_eq_true _⟩
  | none =>
    refine ⟨_, _, rfl, ?_, rfl, rfl, hopen, Nat.le_succ _⟩
    simp [hasAttempt]

/-- A shard of an attempt that is there is found or made. -/
theorem store_upsertMatrix_open (row : NewMatrix) (hopen : t.closed = false)
    (hattempt : t.hasAttempt row.attemptId = true) :
    ∃ matrix t', store (.upsertMatrix row) t = (.ok matrix, t') ∧
      t'.hasMatrix matrix = true ∧ SameSpecs t t' := by
  rw [store_open hopen]
  show ∃ matrix t', upsertMatrix row t = (.ok matrix, t') ∧ _
  rw [upsertMatrix]
  cases hfind : t.findMatrix row with
  | some found =>
    have hmem := List.mem_of_find?_eq_some hfind
    refine ⟨found.id, t, rfl, ?_, rfl, rfl, hopen, Nat.le_refl _⟩
    exact List.any_eq_true.mpr ⟨found, hmem, beq_self_eq_true _⟩
  | none =>
    simp only [hattempt, if_true]
    refine ⟨_, _, rfl, ?_, rfl, rfl, hopen, Nat.le_succ _⟩
    simp [hasMatrix]

end Tables

open Tables

variable {t : Tables} {r : RunState}

/-- The start of a run finds or makes its two rows, and touches neither specs nor tests. -/
theorem beforeRun_open (identity : Identity) (browser : String) (hopen : t.closed = false) :
    ∃ attempt matrix t', beforeRun store identity browser r t =
        ⟨.recorded, { r with
            browser := some browser, attemptId := some attempt, matrixId := some matrix },
          t', [], []⟩ ∧
      t'.hasMatrix matrix = true ∧ t'.specs = t.specs ∧ t'.tests = t.tests ∧
      t'.closed = false ∧ t.lastId ≤ t'.lastId := by
  obtain ⟨attempt, t₁, hattempt, hhas, hkept₁⟩ :=
    store_upsertAttempt_open (identity.attemptRow browser) hopen
  -- the attempt that the shard refers to is the one that was just found or made
  obtain ⟨matrix, t₂, hmatrix, hhas₂, hkept₂⟩ :=
    store_upsertMatrix_open (identity.matrixRow attempt) hkept₁.isOpen hhas
  refine ⟨attempt, matrix, t₂, ?_, hhas₂, hkept₂.specs.trans hkept₁.specs,
    hkept₂.tests.trans hkept₁.tests, hkept₂.isOpen, Nat.le_trans hkept₁.lastId hkept₂.lastId⟩
  rw [beforeRun]
  simp only [hattempt, hmatrix]

/-- A spec that begins gets a row of its own. -/
theorem beforeSpec_open {matrix : MatrixId} (name : String) (hopen : t.closed = false)
    (hmatrix : r.matrixId = some matrix) (hhas : t.hasMatrix matrix = true) :
    beforeSpec store name r t =
      ⟨.recorded, { r with spec := some ⟨name, t.freshId⟩ }, t.addSpec name matrix, [], []⟩ := by
  have hanswer : store (.insertSpec name matrix) t = (.ok t.freshId, t.addSpec name matrix) := by
    rw [store_open hopen]
    show insertSpec name matrix t = _
    rw [insertSpec, if_pos hhas]
    rfl
  simp only [beforeSpec, hmatrix, hanswer]

/-- A spec that ends gets its summary and its tests. -/
theorem afterSpec_open {current : CurrentSpec} (name : String) (results : SpecResults)
    (hopen : t.closed = false) (hspec : r.spec = some current)
    (hhas : t.hasSpec current.id = true) :
    ∃ uploads notices, afterSpec store name results r t =
      ⟨.recorded, r,
        (t.setSummary current.id (.ofStats results.stats)).addTests current.id results.tests,
        uploads, notices⟩ := by
  have hanswer : store (.completeSpec current.id (.ofStats results.stats)) t =
      (.ok (), t.setSummary current.id (.ofStats results.stats)) := by
    rw [store_open hopen]
    show completeSpec current.id _ t = _
    rw [completeSpec, if_pos hhas]
    rfl
  obtain ⟨uploads, htests⟩ := recordTests_open results current.id results.tests
    (t := t.setSummary current.id (.ofStats results.stats)) hopen
    ((hasSpec_setSummary _ _ _ _).trans hhas)
  rw [afterSpec, hspec]
  simp only [hanswer, htests]
  exact ⟨_, _, rfl⟩

/-- The end of a run whose rows are there marks both of them and closes the tables. -/
theorem afterRun_open {attempt : AttemptId} {matrix : MatrixId} (now : Timestamp)
    (hopen : t.closed = false) (hattempt : r.attemptId = some attempt)
    (hmatrix : r.matrixId = some matrix) (hhasAttempt : t.hasAttempt attempt = true)
    (hhasMatrix : t.hasMatrix matrix = true) :
    afterRun store now r t =
      ⟨.recorded, { r with finished := true },
        ((t.markDone matrix).setEndTime attempt now).shut, [], []⟩ := by
  have hdone : perform store (.finishMatrix matrix) t = (.ok (), t.markDone matrix) := by
    rw [perform, store_open hopen]
    simp only [serve, finishMatrix, if_pos hhasMatrix]
    rfl
  have hend : perform store (.finishAttempt attempt now) (t.markDone matrix) =
      (.ok (), (t.markDone matrix).setEndTime attempt now) := by
    -- shards are not looked at, so the attempt is still there
    have hhas : (t.markDone matrix).hasAttempt attempt = true := hhasAttempt
    rw [perform, store_open (show (t.markDone matrix).closed = false from hopen)]
    simp only [serve, finishAttempt, if_pos hhas]
    rfl
  have hclose : perform store .close ((t.markDone matrix).setEndTime attempt now) =
      (.ok (), ((t.markDone matrix).setEndTime attempt now).shut) := by
    rw [perform, store_open (show ((t.markDone matrix).setEndTime attempt now).closed = false
      from hopen)]
    rfl
  simp only [afterRun, performOn, hattempt, hmatrix, hdone, hend, hclose]
  rfl

/-! ## Courses over open tables -/

namespace Course

variable {c : Course Tables} (identity : Identity) (now : Timestamp)

theorem record_beforeSpec_open {matrix : MatrixId} (name : String)
    (hopen : c.store.closed = false) (hmatrix : c.state.matrixId = some matrix)
    (hhas : c.store.hasMatrix matrix = true) :
    Recorded c (c.record Tables.store identity now (.beforeSpec name))
      { c.state with spec := some ⟨name, c.store.freshId⟩ } (c.store.addSpec name matrix) :=
  recorded_of_report Tables.store identity now (beforeSpec_open name hopen hmatrix hhas)

theorem record_afterSpec_open {current : CurrentSpec} (name : String) (results : SpecResults)
    (hopen : c.store.closed = false) (hspec : c.state.spec = some current)
    (hhas : c.store.hasSpec current.id = true) :
    Recorded c (c.record Tables.store identity now (.afterSpec name results)) c.state
      ((c.store.setSummary current.id (.ofStats results.stats)).addTests current.id
        results.tests) := by
  obtain ⟨uploads, notices, heffect⟩ := afterSpec_open name results hopen hspec hhas
  exact recorded_of_report Tables.store identity now heffect

theorem record_afterRun_open {attempt : AttemptId} {matrix : MatrixId} (details : Option Json)
    (hopen : c.store.closed = false) (hattempt : c.state.attemptId = some attempt)
    (hmatrix : c.state.matrixId = some matrix) (hhasAttempt : c.store.hasAttempt attempt = true)
    (hhasMatrix : c.store.hasMatrix matrix = true) :
    Recorded c (c.record Tables.store identity now (.afterRun details))
      { c.state with finished := true }
      ((c.store.markDone matrix).setEndTime attempt now).shut :=
  recorded_of_report Tables.store identity now
    (afterRun_open now hopen hattempt hmatrix hhasAttempt hhasMatrix)

end Course

/-! ## What leaves specs and tests alone -/

/-- Whether a request is about a spec or a test. -/
def Request.isAboutSpecs : Request → Bool
  | .insertSpec _ _ => true
  | .completeSpec _ _ => true
  | .insertTest _ => true
  | _ => false

/-- No other request touches specs or tests. -/
theorem Tables.store_specs_tests (q : Request) (hq : q.isAboutSpecs = false) (t : Tables) :
    (store q t).2.specs = t.specs ∧ (store q t).2.tests = t.tests := by
  cases hclosed : t.closed with
  | true =>
    rw [store, if_pos hclosed]
    exact ⟨rfl, rfl⟩
  | false =>
    rw [store_open hclosed]
    -- requests about specs are excluded; the others touch attempts and matrices
    cases q with
    | insertSpec name matrix => cases hq
    | completeSpec spec summary => cases hq
    | insertTest row => cases hq
    | close => exact ⟨rfl, rfl⟩
    | upsertAttempt row =>
      simp only [serve, upsertAttempt]
      split <;> exact ⟨rfl, rfl⟩
    | upsertMatrix row =>
      simp only [serve, upsertMatrix]
      split
      · exact ⟨rfl, rfl⟩
      · split <;> exact ⟨rfl, rfl⟩
    | finishMatrix matrix =>
      simp only [serve, finishMatrix]
      split <;> exact ⟨rfl, rfl⟩
    | finishAttempt attempt endTime =>
      simp only [serve, finishAttempt]
      split <;> exact ⟨rfl, rfl⟩

/-- A request about no spec leaves specs and tests alone, done or not. -/
theorem perform_specs_tests (q : Request) (hq : q.isAboutSpecs = false) (t : Tables) :
    (perform store q t).2.specs = t.specs ∧ (perform store q t).2.tests = t.tests := by
  have hframe := Tables.store_specs_tests q hq t
  rw [perform]
  cases hanswer : store q t with
  | mk answer t' =>
    rw [hanswer] at hframe
    cases answer <;> exact hframe

theorem performOn_specs_tests {α : Type} (id : Option α) (missing : HookError) {q : α → Request}
    (hq : ∀ a, (q a).isAboutSpecs = false) (t : Tables) :
    (performOn store id missing q t).2.specs = t.specs ∧
      (performOn store id missing q t).2.tests = t.tests := by
  cases id with
  | none => exact ⟨rfl, rfl⟩
  | some a => exact perform_specs_tests (q a) (hq a) t

/-- The end of a run touches neither specs nor tests, whatever its requests are answered with. -/
theorem afterRun_specs_tests (now : Timestamp) (r : RunState) (t : Tables) :
    (afterRun store now r t).store.specs = t.specs ∧
      (afterRun store now r t).store.tests = t.tests := by
  have hdone := performOn_specs_tests r.matrixId .missingMatrix (q := .finishMatrix)
    (fun _ => rfl) t
  have hend := performOn_specs_tests r.attemptId .missingAttempt (q := (.finishAttempt · now))
    (fun _ => rfl) (performOn store r.matrixId .missingMatrix .finishMatrix t).2
  have hclose := perform_specs_tests .close rfl
  constructor
  · exact ((hclose _).1.trans hend.1).trans hdone.1
  · exact ((hclose _).2.trans hend.2).trans hdone.2

end RunJournal
