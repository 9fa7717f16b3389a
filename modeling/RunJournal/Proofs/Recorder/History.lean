import RunJournal.Proofs.Event.Written
import RunJournal.Proofs.Recorder.Calls
import RunJournal.Proofs.Recorder.Course
import RunJournal.Proofs.Store.Backed

/-!
# The stored history is what was reported

For every test of a spec a recorder asks its store to keep the history of the test: a text that
holds the attempts. That text, read as JSON, is the array of attempts that the event gave for the
test, up to the order of members and to members that are repeated (`history_verbatim`). On the way
the attempts are parsed, split into their state and the rest, sorted, written and read again;
nothing is lost, doubled or renamed.

It holds of what a recorder asks for, whatever its store does, and of the rows that are kept: the
tables behind a store gain one row for each test that the store grants, with the values that were
asked for (`Store.BackedBy.tests_recordEvent`).

The statement compares two JSON values: one read from the stored text, one found in the text of the
event (`reportedTests`, `reportedAttempts`). It is about events in which the records on the way to
the attempts are written as objects (`InObjects`); an array has no names to find them by.
-/

namespace RunJournal

open Json

/-! ## What an event reports -/

namespace Json

/-- Whether a value is an object. -/
def isObject : Json → Bool
  | .object _ => true
  | _ => false

/-- The items of an array; none of any other value. -/
def items : Json → List Json
  | .array items => items
  | _ => []

theorem exists_members {v : Json} (h : v.isObject = true) : ∃ members, v = .object members := by
  cases v with
  | object members => exact ⟨members, rfl⟩
  | _ => cases h

/-- The items of an array that may be missing. -/
theorem optional_asList {α : Type} {fields : List (String × Json)} {name : String}
    {read : Json → Option α} :
    optional fields name (asList read) [] =
      asList read ((fields.lookup name).getD (.array [])) := by
  unfold optional
  cases fields.lookup name with
  | none => rfl
  | some v => rfl

theorem mapM_items_of_asList {α : Type} {read : Json → Option α} {v : Json} {as : List α}
    (h : asList read v = some as) : v.items.mapM read = some as := by
  cases v with
  | array items => exact h
  | _ => cases h

theorem within_of_member? {P : Number → Prop} {depth : Nat} {v default : Json}
    (hv : Within P (depth + 1) v) (hdefault : Within P depth default) (name : String) :
    Within P depth ((v.member? name).getD default) := by
  cases hlookup : v.member? name with
  | none => exact hdefault
  | some w =>
    cases v with
    | object members => exact hv.members _ (mem_of_lookup hlookup)
    | _ => cases hlookup

end Json

/-- The results that an event reports. -/
def reportedResults (event : Json) : Json := (event.member? "results").getD .null

/-- The tests that an event reports; none if the results do not give them. -/
def reportedTests (event : Json) : List Json :=
  (((reportedResults event).member? "tests").getD (.array [])).items

/-- The attempts that are reported for a test; none if the test does not give them. -/
def reportedAttempts (test : Json) : Json := (test.member? "attempts").getD (.array [])

/-- The records between an event and its attempts are written as objects. -/
structure InObjects (event : Json) : Prop where
  results : (reportedResults event).isObject = true
  tests : ∀ test ∈ reportedTests event, test.isObject = true

/-- The results of a spec are read from what is reported as results. -/
theorem results_of_ofFields? {members : List (String × Json)} {spec : String}
    {results : SpecResults}
    (h : Event.ofFields? .afterSpec (.object (members.filter fun m => m.1 != "event")) =
      some (.afterSpec spec results)) :
    SpecResults.ofJson? (reportedResults (.object members)) = some results := by
  obtain ⟨-, fields, hfields, -, hresults⟩ := Event.ofFields?_eq_some_iff.mp h
  obtain ⟨v, hv, hread⟩ := required_eq_some_iff.mp hresults
  rw [lookup_of_fields? hfields (by decide),
    lookup_filter (p := fun m => m.1 != "event") fun _ => rfl] at hv
  show SpecResults.ofJson? ((members.lookup "results").getD .null) = _
  rw [hv]
  exact hread

/-- The tests of a spec are read one by one from what is reported as tests. -/
theorem mapM_reportedTests {event : Json} {results : SpecResults} (hobjects : InObjects event)
    (h : SpecResults.ofJson? (reportedResults event) = some results) :
    (reportedTests event).mapM TestResult.ofJson? = some results.tests := by
  obtain ⟨members, hmembers⟩ := exists_members hobjects.results
  rw [hmembers] at h
  obtain ⟨fields, hfields, -, htests, -⟩ := SpecResults.ofJson?_eq_some_iff.mp h
  rw [optional_asList, lookup_of_fields? hfields (by decide)] at htests
  refine mapM_items_of_asList ?_
  rw [hmembers]
  exact htests

/-- The attempts of a test are read from what is reported as attempts. -/
theorem asList_reportedAttempts {test : Json} {t : TestResult} (hobject : test.isObject = true)
    (h : TestResult.ofJson? test = some t) :
    asList Attempt.ofJson? (reportedAttempts test) = some t.attempts := by
  obtain ⟨members, rfl⟩ := exists_members hobject
  obtain ⟨fields, hfields, -, -, -, hattempts⟩ := TestResult.ofJson?_eq_some_iff.mp h
  rw [optional_asList, lookup_of_fields? hfields (by decide)] at hattempts
  exact hattempts

/-! ## The history of a test -/

/-- What is stored for a test says what was reported as its attempts: it is the same JSON value,
from which the same attempts are read, and as many as are counted. -/
def NewTest.Tells (row : NewTest) (reported : Json) (attempts : List Attempt) : Prop :=
  ∃ items, Json.read row.retryData.toList = .ok (.array items) ∧
    (Json.array items).canonical = reported.canonical ∧
    items.mapM Attempt.ofJson? = some attempts ∧
    row.retries = (min items.length maxRetries : Nat)

/-- Attempts are written as what they were read from. -/
theorem canonical_attempts {reported : Json} {attempts : List Attempt}
    (h : asList Attempt.ofJson? reported = some attempts) :
    (Json.array (attempts.map Attempt.toJson)).canonical = reported.canonical := by
  cases reported with
  | array items =>
    rw [canonical, canonical, canonicalItems_eq, canonicalItems_eq, List.map_map]
    exact congrArg Json.array
      (map_eq_map_of_mapM (fun v a ha => Attempt.canonical_toJson ha) h)
  | _ => cases h

/-- **The history of a test tells what was reported.** -/
theorem TestResult.tells_of_reported {t : TestResult} {reported : Json} {depth : Nat}
    (h : asList Attempt.ofJson? reported = some t.attempts)
    (hwithin : Within InRange depth reported) (htwo : 2 ≤ depth) (hdepth : depth ≤ maxDepth)
    (hreal : ∀ x ∈ (Json.array (t.attempts.map Attempt.toJson)).doubles, ReadsBack (.real x))
    (spec : SpecId) : (t.row spec).Tells reported t.attempts := by
  have hkept := Attempt.retold.asList htwo hwithin h
  refine ⟨t.attempts.map Attempt.toJson, ?_, canonical_attempts h, hkept.read_write, ?_⟩
  · have htext : (t.row spec).retryData.toList =
        (Json.array (t.attempts.map Attempt.toJson)).print := String.toList_ofList
    rw [htext]
    exact read_print ((hkept.within.mono_depth hdepth).readsBack hreal)
  · rw [List.length_map]
    rfl

/-! ## Rows that are asked for -/

/-- The row of a test that a call asks for. -/
def Call.newTest? (call : Call) : Option NewTest :=
  match call.request with
  | .insertTest row => some row
  | _ => none

/-- The row of a test that a call is granted. -/
def Call.testRow? : Call → Option TestRow
  | ⟨.insertTest row, .ok id⟩ => some ⟨id, row⟩
  | _ => none

theorem Call.testRow?_error (q : Request) (cause : StoreError) :
    Call.testRow? ⟨q, .error cause⟩ = none := by
  cases q <;> rfl

/-- For the tests of a spec rows are asked for in their order, up to the first that is refused, and
the others are granted. -/
theorem TestsMade.newTests {results : SpecResults} {spec : SpecId} {tests : List TestResult}
    {result : Except HookError Unit} {blocks : List (Call × List Upload)}
    (h : TestsMade results spec tests result blocks) :
    let calls := blocks.map Prod.fst
    calls.filterMap Call.newTest? <+: tests.map (·.row spec) ∧
      (calls.filterMap Call.testRow?).map TestRow.values <+: calls.filterMap Call.newTest? ∧
      (result = .ok () →
        calls.filterMap Call.newTest? = tests.map (·.row spec) ∧
        (calls.filterMap Call.testRow?).map TestRow.values = calls.filterMap Call.newTest?) := by
  induction h with
  | done => exact ⟨List.prefix_refl _, List.prefix_refl _, fun _ => ⟨rfl, rfl⟩⟩
  | refused test rest cause =>
    exact ⟨List.cons_prefix_cons.mpr ⟨rfl, List.nil_prefix⟩, List.nil_prefix, fun h => nomatch h⟩
  | made id _ ih =>
    obtain ⟨hasked, hgranted, hall⟩ := ih
    refine ⟨List.cons_prefix_cons.mpr ⟨rfl, hasked⟩, List.cons_prefix_cons.mpr ⟨rfl, hgranted⟩,
      fun h => ?_⟩
    obtain ⟨hasked, hgranted⟩ := hall h
    exact ⟨congrArg _ hasked, congrArg _ hgranted⟩

section Recording

variable {σ : Type} (store : Store σ) (identity : Identity) (now : Timestamp) (r : RunState) (s : σ)

/-- The rows of tests that are asked for when an event is recorded. -/
def newTestsOf (e : Event) : List NewTest :=
  (recordEvent store.logged identity now e r (s, [])).store.2.filterMap Call.newTest?

/-- The rows of tests that are granted when an event is recorded. -/
def testRowsOf (e : Event) : List TestRow :=
  (recordEvent store.logged identity now e r (s, [])).store.2.filterMap Call.testRow?

/-- At the end of a spec the rows of its tests are asked for, and rows with these values are granted
up to the first that is refused; all of them are if the event is recorded. -/
theorem newTestsOf_afterSpec (name : String) (results : SpecResults) :
    let e : Event := .afterSpec name results
    ∃ spec, newTestsOf store identity now r s e <+: results.tests.map (·.row spec) ∧
      (testRowsOf store identity now r s e).map TestRow.values <+:
        newTestsOf store identity now r s e ∧
      ((recordEvent store identity now e r s).outcome = .recorded →
        newTestsOf store identity now r s e = results.tests.map (·.row spec) ∧
        (testRowsOf store identity now r s e).map TestRow.values =
          newTestsOf store identity now r s e) := by
  intro e
  rw [← recordEvent_logged store identity now r s e []]
  unfold newTestsOf testRowsOf
  have hrecord : recordEvent store.logged identity now e r (s, []) =
    afterSpec store.logged name results r (s, []) := rfl
  rcases afterSpec_logged store r s name results with ⟨-, hlogged⟩ | ⟨current, -, hlogged⟩
  · rw [hrecord, hlogged]
    exact ⟨⟨0⟩, List.nil_prefix, List.nil_prefix, fun h => nomatch h⟩
  · refine ⟨current.id, ?_⟩
    rcases hlogged with ⟨cause, s', hlogged⟩ | ⟨result, blocks, s', hmade, hlogged⟩
    · rw [hrecord, hlogged]
      exact ⟨List.nil_prefix, List.nil_prefix, fun h => nomatch h⟩
    · obtain ⟨hasked, hgranted, hall⟩ := hmade.newTests
      rw [hrecord, hlogged]
      refine ⟨hasked, hgranted, fun h => hall ?_⟩
      cases result with
      | ok _ => rfl
      | error cause => cases h

end Recording

/-! ## Rows that are kept -/

/-- A request that is served adds the row of a test if it is granted one, and no other. -/
theorem Tables.Served.tests_eq {t t' : Tables} {q : Request} {answer : q.Answer}
    (h : t.Served q answer t') :
    t'.tests = t.tests ++ (Call.testRow? ⟨q, .ok answer⟩).toList := by
  cases h with
  | testMade => rfl
  | _ => exact (List.append_nil _).symm

/-- **The tables gain the rows that a recorder is granted**, in order and with the values that it
asked for; their tests gain nothing else. -/
theorem Store.BackedBy.tests_recordEvent {σ : Type} {store : Store σ} {tables : σ → Tables}
    (h : store.BackedBy tables) (identity : Identity) (now : Timestamp) (e : Event) (r : RunState)
    (s : σ) :
    (tables (recordEvent store identity now e r s).store).tests =
      (tables s).tests ++ testRowsOf store identity now r s e := by
  -- what the calls on the log were granted so far is what the tables have gained
  let motive : σ × List Call → Prop := fun p =>
    (tables p.1).tests = (tables s).tests ++ p.2.filterMap Call.testRow?
  have hstep : ∀ q p, q.kind.event = e.kind → motive p → motive (store.logged q p).2 := by
    rintro q ⟨s₁, log⟩ - hgained
    have hnext : (tables (store q s₁).2).tests =
        (tables s₁).tests ++ (Call.testRow? ⟨q, (store q s₁).1⟩).toList := by
      rcases h q s₁ with ⟨cause, s', hfail, htables⟩ | ⟨answer, s', hok, hanswer⟩
      · rw [hfail, htables, Call.testRow?_error]
        exact (List.append_nil _).symm
      · rw [hok]
        exact (Tables.served_of_store hanswer).tests_eq
    show (tables (store q s₁).2).tests = (tables s).tests ++
      (log ++ [(⟨q, (store q s₁).1⟩ : Call)]).filterMap Call.testRow?
    rw [hnext, hgained, List.filterMap_append, List.append_assoc]
    cases hrow : Call.testRow? ⟨q, (store q s₁).1⟩ <;> simp [hrow]
  have hstart : motive (s, []) := (List.append_nil _).symm
  have hend := recordEvent_induction hstep identity now r hstart
  rw [← recordEvent_logged store identity now r s e []]
  exact hend

/-! ## The stored history -/

theorem within_of_read {cs : List Char} {v : Json} (h : Json.read cs = .ok v) :
    Within InRange maxDepth v := by
  obtain ⟨⟨w, rest⟩, hvalue, h⟩ := bind_eq_ok_iff.mp h
  obtain ⟨_, -, h⟩ := bind_eq_ok_iff.mp h
  cases h
  exact within_of_readValue hvalue

/-- What is reported as the attempts of a test is nested four levels less deep than the event. -/
theorem within_reportedAttempts {event : Json} (h : Within InRange maxDepth event) :
    ∀ test ∈ reportedTests event, Within InRange 123 (reportedAttempts test) := by
  have hnil (depth : Nat) : Within InRange (depth + 1) (.array []) :=
    .array fun v hv => absurd hv List.not_mem_nil
  have hresults : Within InRange 126 (reportedResults event) :=
    within_of_member? h (.null 126) "results"
  have htests := within_of_member? hresults (hnil 124) "tests"
  intro test htest
  have hentry : Within InRange 124 test := by
    unfold reportedTests at htest
    cases harray : ((reportedResults event).member? "tests").getD (.array []) with
    | array items =>
      rw [harray] at htests htest
      exact htests.items test htest
    | _ =>
      rw [harray] at htest
      cases htest
  exact within_of_member? hentry (hnil 122) "attempts"

/-- A row is for the test at a position, and its history is what the event reports there as
attempts; as far as the doubles among them are read back as they were written. -/
def NewTest.TellsAt (row : NewTest) (event : Json) (results : SpecResults) (i : Nat) : Prop :=
  ∃ test reported, results.tests[i]? = some test ∧ (reportedTests event)[i]? = some reported ∧
    ((∀ x ∈ (Json.array (test.attempts.map Attempt.toJson)).doubles, ReadsBack (.real x)) →
      row.Tells (reportedAttempts reported) test.attempts)

/-- Rows that are asked for in the order of the tests tell of them. -/
theorem tellsAt_of_prefix {event : Json} {results : SpecResults} {spec : SpecId}
    {rows : List NewTest} (hobjects : InObjects event)
    (hresults : SpecResults.ofJson? (reportedResults event) = some results)
    (hwithin : Within InRange maxDepth event) (hrows : rows <+: results.tests.map (·.row spec))
    {i : Nat} {row : NewTest} (hrow : rows[i]? = some row) : row.TellsAt event results i := by
  have hat : (results.tests.map (·.row spec))[i]? = some row := by
    obtain ⟨more, hmore⟩ := hrows
    rw [← hmore, List.getElem?_append_left (List.getElem?_eq_some_iff.mp hrow).1]
    exact hrow
  rw [List.getElem?_map] at hat
  obtain ⟨test, htest, rfl⟩ := Option.map_eq_some_iff.mp hat
  have hparsed := htest
  rw [getElem?_of_mapM (mapM_reportedTests hobjects hresults)] at hparsed
  obtain ⟨reported, hreported, hparsed⟩ := Option.bind_eq_some_iff.mp hparsed
  have hmem := List.mem_of_getElem? hreported
  refine ⟨test, reported, htest, hreported, fun hreal => ?_⟩
  exact test.tells_of_reported (asList_reportedAttempts (hobjects.tests reported hmem) hparsed)
    (within_reportedAttempts hwithin reported hmem) (by decide) (by decide) hreal spec

/-- **The stored history is what was reported.** A text that is accepted as the end of a spec
denotes an event.

- Whatever a store does, the rows of tests that it is asked for come in the order of the tests that
  the event reports, all of them if the event is recorded; and the history in each row is, as JSON,
  the array of attempts that the event reports for the test.
- The tables behind a store gain tests with these values in the same order, all of them if the event
  is recorded, and no other tests; and the history that they keep for each is what the event
  reports.
- Tables in memory that are open and have the spec that is remembered record the event, and gain
  the tests of the event. -/
theorem history_verbatim {cs tail : List Char} {name : String} {results : SpecResults}
    (hopen : skipSpace cs = '\x7b' :: tail)
    (hread : Event.read cs = .ok (.afterSpec name results)) :
    ∃ event, Json.read cs = .ok event ∧ (InObjects event →
      (reportedTests event).length = results.tests.length ∧
      (∀ {σ : Type} (store : Store σ) (identity : Identity) (now : Timestamp) (r : RunState) (s : σ),
        let rows := newTestsOf store identity now r s (.afterSpec name results)
        ((recordEvent store identity now (.afterSpec name results) r s).outcome = .recorded →
          rows.length = results.tests.length) ∧
        ∀ (i : Nat) (row : NewTest), rows[i]? = some row → row.TellsAt event results i) ∧
      (∀ {σ : Type} {store : Store σ} {tables : σ → Tables}, store.BackedBy tables →
        ∀ (identity : Identity) (now : Timestamp) (r : RunState) (s : σ),
        let report := recordEvent store identity now (.afterSpec name results) r s
        ∃ kept : List TestRow, (tables report.store).tests = (tables s).tests ++ kept ∧
          kept.map TestRow.values <+: newTestsOf store identity now r s (.afterSpec name results) ∧
          (report.outcome = .recorded → kept.length = results.tests.length) ∧
          ∀ (i : Nat) (row : TestRow), kept[i]? = some row → row.values.TellsAt event results i) ∧
      ∀ (identity : Identity) (now : Timestamp) (r : RunState) (t : Tables) (current : CurrentSpec),
        t.closed = false → r.spec = some current → t.hasSpec current.id = true →
        let report := recordEvent Tables.store identity now (.afterSpec name results) r t
        report.outcome = .recorded ∧
          ∃ kept : List TestRow, report.store.tests = t.tests ++ kept ∧
            kept.map TestRow.values = results.tests.map (·.row current.id)) := by
  obtain ⟨members, hjson, hfields⟩ := Event.json_of_read hopen hread
  refine ⟨_, hjson, fun hobjects => ?_⟩
  have hresults := results_of_ofFields? hfields
  have hwithin := within_of_read hjson
  refine ⟨?_, fun store identity now r s => ?_, fun hbacked identity now r s => ?_, ?_⟩
  -- tests are read one from each value, so there are as many
  · have hlength := congrArg List.length (map_eq_map_of_mapM (f := fun _ => ()) (g := fun _ => ())
      (fun _ _ _ => rfl) (mapM_reportedTests hobjects hresults))
    rw [List.length_map, List.length_map] at hlength
    exact hlength.symm
  · obtain ⟨spec, hasked, -, hall⟩ := newTestsOf_afterSpec store identity now r s name results
    refine ⟨fun hrecorded => ?_, fun i row hrow =>
      tellsAt_of_prefix hobjects hresults hwithin hasked hrow⟩
    rw [(hall hrecorded).1, List.length_map]
  · obtain ⟨spec, hasked, hgranted, hall⟩ :=
      newTestsOf_afterSpec _ identity now r s name results
    refine ⟨_, hbacked.tests_recordEvent identity now (.afterSpec name results) r s, hgranted,
      fun hrecorded => ?_, fun i row hrow => ?_⟩
    · obtain ⟨hrows, hvalues⟩ := hall hrecorded
      have hlength := congrArg List.length (hvalues.trans hrows)
      rwa [List.length_map, List.length_map] at hlength
    -- a row that was kept was asked for, in the same place
    · refine tellsAt_of_prefix hobjects hresults hwithin (hgranted.trans hasked) ?_
      rw [List.getElem?_map, hrow]
      rfl
  · intro identity now r t current hopen hspec hhas
    obtain ⟨uploads, notices, heffect⟩ := afterSpec_open name results hopen hspec hhas
    exact ⟨congrArg HookReport.outcome heffect, _,
      congrArg (fun report => report.store.tests) heffect,
      Tables.map_values_testRows current.id _ results.tests⟩

/-- The end of a spec with one test that failed and was retried. An attempt gives a member twice,
and there are a double, an escape and an object whose members are not in order. -/
def retriedTest : List Char :=
  let text := "\x7b\"event\":\"after:spec\",\"spec\":[\"a.ts\"],\"results\":" ++
    "\x7b\"stats\":\x7b\x7d,\"tests\":[" ++
    "\x7b\"title\":[\"t\"],\"state\":\"passed\",\"attempts\":[" ++
    "\x7b\"ms\":1.5,\"state\":\"failed\",\"why\":\x7b\"b\":\"\\n\",\"a\":1\x7d,\"ms\":2.5\x7d," ++
    "\x7b\"state\":\"passed\"\x7d]\x7d]\x7d\x7d"
  (Text.decodeUtf8 text.toUTF8.data.toList).toOption.getD []

/-- The results of a spec that a reader gave. -/
def resultsOf : Except Fault Event → Option (String × SpecResults)
  | .ok (.afterSpec name results) => some (name, results)
  | _ => none

theorem resultsOf_eq_some {x : Except Fault Event} {name : String} {results : SpecResults}
    (h : resultsOf x = some (name, results)) : x = .ok (.afterSpec name results) := by
  unfold resultsOf at h
  split at h
  · cases h
    rfl
  · cases h

/-- A recorder that has started a spec. -/
def startedSpec : Course Tables :=
  (Course.start .initial .empty).recordAll Tables.store .sample ⟨0, 0⟩
    [.beforeRun "chrome", .beforeSpec "a.ts"]

/-- One row is added to the tables, and it tells of both attempts. -/
theorem history_verbatim_retriedTest :
    ∃ name results event, skipSpace retriedTest = '\x7b' :: retriedTest.tail ∧
      Event.read retriedTest = .ok (.afterSpec name results) ∧
      Json.read retriedTest = .ok event ∧ InObjects event ∧
      ∃ row reported attempts,
        (recordEvent Tables.store .sample ⟨0, 0⟩ (.afterSpec name results) startedSpec.state
          startedSpec.store).store.tests = startedSpec.store.tests ++ [row] ∧
        newTestsOf Tables.store .sample ⟨0, 0⟩ startedSpec.state startedSpec.store
          (.afterSpec name results) = [row.values] ∧
        (reportedTests event)[0]? = some reported ∧ attempts.length = 2 ∧
        row.values.Tells (reportedAttempts reported) attempts := by
  have hopen : skipSpace retriedTest = '\x7b' :: retriedTest.tail := by decide +kernel
  have hsome : (resultsOf (Event.read retriedTest)).isSome = true := by decide +kernel
  -- what the report holds is computed; what the store keeps of it follows from the theorem
  have hresults : ∀ x ∈ resultsOf (Event.read retriedTest),
      x.2.tests.map (·.attempts.length) = [2] ∧
      ∀ test ∈ x.2.tests, ∀ d ∈ (Json.array (test.attempts.map Attempt.toJson)).doubles,
        ReadsBack (.real d) := by
    decide +kernel
  have hobjects : ∀ v ∈ (Json.read retriedTest).toOption, (reportedResults v).isObject = true ∧
      ∀ test ∈ reportedTests v, test.isObject = true := by
    decide +kernel
  obtain ⟨⟨name, results⟩, hx⟩ := Option.isSome_iff_exists.mp hsome
  obtain ⟨hattempts, hreal⟩ := hresults _ hx
  have hread := resultsOf_eq_some hx
  obtain ⟨event, hjson, hstored⟩ := history_verbatim hopen hread
  have hevent : InObjects event := by
    have hform := hobjects event (by rw [hjson]; rfl)
    exact ⟨hform.1, hform.2⟩
  obtain ⟨-, hasked, hkept, hrecords⟩ := hstored hevent
  obtain ⟨hrecorded, -⟩ := hrecords .sample ⟨0, 0⟩ startedSpec.state startedSpec.store
    ⟨"a.ts", ⟨3⟩⟩ (by decide) (by decide) (by decide)
  obtain ⟨kept, htables, hvalues, hlength, htells⟩ :=
    hkept Tables.store_backedBy .sample ⟨0, 0⟩ startedSpec.state startedSpec.store
  have hone : results.tests.length = 1 := by
    have hlengths := congrArg List.length hattempts
    rwa [List.length_map] at hlengths
  obtain ⟨row, rfl⟩ := List.length_eq_one_iff.mp ((hlength hrecorded).trans hone)
  have hrows := (hasked Tables.store .sample ⟨0, 0⟩ startedSpec.state startedSpec.store).1 hrecorded
  obtain ⟨test, reported, htest, hreported, htell⟩ := htells 0 row rfl
  have hcount : test.attempts.length = 2 := by
    have hmem := List.mem_map_of_mem (f := fun t => t.attempts.length) (List.mem_of_getElem? htest)
    rw [hattempts] at hmem
    exact List.mem_singleton.mp hmem
  exact ⟨name, results, event, hopen, hread, hjson, hevent, row, reported, test.attempts, htables,
    (hvalues.eq_of_length (hrows.trans hone).symm).symm, hreported, hcount,
    htell (hreal test (List.mem_of_getElem? htest))⟩

end RunJournal
