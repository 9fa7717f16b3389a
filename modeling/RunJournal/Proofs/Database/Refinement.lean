import Mathlib.Data.Multiset.Lattice
import Mathlib.Data.Multiset.Sort
import Mathlib.Order.Lattice.Nat
import RunJournal.Proofs.Database.Copies
import RunJournal.Proofs.Session.Mirror

/-!
# A database in the place of tables in memory

A recorder is to do with a database what it does with tables in memory, so that what was rehearsed
with tables is what happens. Identifiers keep this from being an equality. Tables take them from one
counter for all rows; a server gives to a row any that its table does not have, and may lose some.
So the two stores are related by a naming of the rows (`InStep`), which is extended whenever a row
is made and is never changed for a row that is there (`Onward`).

A request takes stores that are in step to stores that are in step (`InStep.request`), hence an
event does (`InStep.recordEvent`), and by induction a run (`InStep.record`). An event may be any and
may come at any point: the recorder refers to rows that are there since what it remembers mirrors
the tables, and once the end of a run has closed both stores, both refuse. `Gateway.refines_tables`
is the main statement. `Database.sampleServer` is a server of the kind that is assumed.
-/

namespace RunJournal

variable {σ : Type} {server : Server σ} {rules : ServerRules} {view : σ → Database}
  {ν ν' ν'' : Naming} {t t' t'' : Tables} {g g' g'' : Link × σ} {table : Table}

/-! ## Requests -/

/-- Tables in memory, and a gateway to a copy of them that has its link as long as they are open. -/
structure InStep (rules : ServerRules) (view : σ → Database) (ν : Naming) (t : Tables)
    (g : Link × σ) : Prop where
  wellFormed : t.WellFormed
  copies : Copies rules ν t (view g.2)
  link : g.1 = if t.closed then .closed else .live

/-- Both stores are in step again, after something that took no row away and has changed no name. -/
structure Onward (rules : ServerRules) (view : σ → Database) (ν : Naming) (t : Tables) (ν' : Naming)
    (t' : Tables) (g' : Link × σ) : Prop where
  agree : t.Agree ν ν'
  grows : ∀ table, t.idsOf table ⊆ t'.idsOf table
  inStep : InStep rules view ν' t' g'

theorem Onward.refl (h : InStep rules view ν t g) : Onward rules view ν t ν t g :=
  ⟨.refl t ν, fun _ => List.Subset.refl _, h⟩

theorem Onward.trans (h₁ : Onward rules view ν t ν' t' g')
    (h₂ : Onward rules view ν' t' ν'' t'' g'') : Onward rules view ν t ν'' t'' g'' :=
  ⟨h₁.agree.trans h₁.grows h₂.agree, fun table _ hid => h₂.grows table (h₁.grows table hid),
    h₂.inStep⟩

/-- Naming rows otherwise changes nothing that a column has to hold. -/
theorem Request.fitsColumns_under {now : Timestamp} {q : Request} :
    (q.under ν now).FitsColumns ↔ q.FitsColumns := by
  cases q <;> exact Iff.rfl

/-- A request refers to the same rows under other names. -/
theorem Copies.refers_under {d : Database} (h : Copies rules ν t d) {q : Request} (now : Timestamp)
    (hq : q.Refers fun id => t.Has id) : (q.under ν now).Refers fun id => d.Has id := by
  cases q with
  | upsertAttempt row => trivial
  | close => trivial
  | _ => exact h.has_under_iff.mpr hq

namespace Tables

/-- No table loses an id. -/
theorem Extends.idsOf_subset (h : t.Extends t') (table : Table) :
    t.idsOf table ⊆ t'.idsOf table := by
  cases table with
  | attempt =>
    have hids := (h.attempts.map fun p => p.1.value).subset
    rwa [List.map_map, List.map_map] at hids
  | matrix =>
    have hids := (h.matrices.map fun p => p.1.value).subset
    rwa [List.map_map, List.map_map] at hids
  | specs =>
    have hids := (h.specs.map fun p => p.1.value).subset
    rwa [List.map_map, List.map_map] at hids
  | tests => exact (h.tests.map _).subset

/-- Open tables answer a request that refers to rows that are there. -/
theorem exists_store_eq_ok (hopen : t.closed = false) {q : Request}
    (hq : q.Refers fun id => t.Has id) : ∃ answer t', store q t = (.ok answer, t') := by
  -- the store refuses only what refers to a row that is not there
  cases q with
  | upsertAttempt row =>
    obtain ⟨attempt, t', hanswer, -⟩ := store_upsertAttempt_open row hopen
    exact ⟨attempt, t', hanswer⟩
  | upsertMatrix row =>
    obtain ⟨matrix, t', hanswer, -⟩ :=
      store_upsertMatrix_open row hopen (has_attempt_iff.mp hq)
    exact ⟨matrix, t', hanswer⟩
  | insertSpec name matrix =>
    rw [store_open hopen]
    simp only [serve, insertSpec, has_matrix_iff.mp hq, if_true]
    exact ⟨_, _, rfl⟩
  | completeSpec spec summary =>
    rw [store_open hopen]
    simp only [serve, completeSpec, has_spec_iff.mp hq, if_true]
    exact ⟨_, _, rfl⟩
  | insertTest row =>
    rw [store_open hopen]
    simp only [serve, insertTest, has_spec_iff.mp hq, if_true]
    exact ⟨_, _, rfl⟩
  | finishMatrix matrix =>
    rw [store_open hopen]
    simp only [serve, finishMatrix, has_matrix_iff.mp hq, if_true]
    exact ⟨_, _, rfl⟩
  | finishAttempt attempt endTime =>
    rw [store_open hopen]
    simp only [serve, finishAttempt, has_attempt_iff.mp hq, if_true]
    exact ⟨_, _, rfl⟩
  | close =>
    rw [store_open hopen]
    exact ⟨_, _, rfl⟩

/-- The link of a gateway is closed by the request that closes open tables. -/
theorem Served.linkAfter_eq {q : Request} {answer : q.Answer} (h : t.Served q answer t')
    (hopen : t.closed = false) (ν : Naming) (now : Timestamp) :
    Gateway.linkAfter (q.under ν now) .live = if t'.closed then .closed else .live := by
  have hlive : Link.live = if t.closed then .closed else .live := by rw [hopen]; rfl
  cases h with
  | closed => rfl
  | _ => exact hlive

/-- The attempt that was asked for is there afterwards, found or made. -/
theorem Served.has_attempt {row : NewAttempt} {id : AttemptId}
    (h : t.Served (.upsertAttempt row) id t') : t'.Has id := by
  cases h with
  | attemptFound hmem hkey => exact List.mem_map_of_mem hmem
  | attemptMade hnew =>
    exact List.mem_map_of_mem (List.mem_append_right _ (List.mem_singleton.mpr rfl))

/-- The test that was made is there afterwards. -/
theorem Served.has_test {row : NewTest} {id : TestId} (h : t.Served (.insertTest row) id t') :
    t'.Has id := by
  cases h with
  | testMade hspec =>
    exact List.mem_map_of_mem (List.mem_append_right _ (List.mem_singleton.mpr rfl))

end Tables

/-- **A request fails in both stores, or it is answered in both alike.** -/
theorem InStep.request (hserver : server.KeepsSchema rules view) (h : InStep rules view ν t g)
    {q : Request} (hq : q.Refers fun id => t.Has id) (hfits : q.FitsColumns) (now : Timestamp) :
    (∃ cause, Tables.store q t = (.error cause, t) ∧
      Gateway.store server (q.under ν now) g = (.error cause, g)) ∨
    ∃ answer t' ν' g', Tables.store q t = (.ok answer, t') ∧
      Gateway.store server (q.under ν now) g = (.ok (q.answerUnder ν now ν' answer), g') ∧
      t.Served q answer t' ∧ Onward rules view ν t ν' t' g' := by
  obtain ⟨link, s⟩ := g
  have hfits' : (q.under ν now).FitsColumns := Request.fitsColumns_under.mpr hfits
  -- closed tables and a closed link refuse everything, so only open ones come to a statement
  cases hopen : t.closed with
  | true =>
    have hlink : link = .closed := h.link.trans (if_pos hopen)
    subst hlink
    have hrefuses := Gateway.store_closed_refuses server s (q.under ν now)
    rw [Gateway.precheck_eq_none_iff.mpr hfits'] at hrefuses
    exact .inl ⟨.closed, by rw [Tables.store, if_pos hopen], hrefuses⟩
  | false =>
    have hlink : link = .live := h.link.trans (by rw [hopen]; rfl)
    subst hlink
    obtain ⟨answer, t', hanswer⟩ := Tables.exists_store_eq_ok hopen hq
    have hserved := Tables.served_of_store hanswer
    obtain ⟨answer', s', hanswer', hserves⟩ :=
      Gateway.store_serves hserver hfits' (h.copies.refers_under now hq)
    obtain ⟨ν', hagree, rfl, hcopies⟩ := hserved.simulated hserves h.wellFormed h.copies
    exact .inr ⟨answer, t', ν', _, hanswer, hanswer', hserved, hagree,
      hserved.extends.idsOf_subset, hserved.wellFormed h.wellFormed, hcopies,
      hserved.linkAfter_eq hopen ν now⟩

/-! ## Uploads -/

/-- The rows that an artifact belongs to are in the tables. -/
def Artifact.Among (t : Tables) : Artifact → Prop
  | .screenshot _ test spec _ => t.Has test ∧ t.Has spec
  | .video _ spec => t.Has spec

/-- Uploads for the same artifacts, but for the names of the rows in their keys. -/
def UploadsAlike (ν : Naming) (t : Tables) (us vs : List Upload) : Prop :=
  ∃ artifacts : List Artifact, us = artifacts.map Artifact.upload ∧
    vs = artifacts.map (fun a => (a.under ν).upload) ∧ ∀ a ∈ artifacts, a.Among t

/-- Namings that agree on the rows there are give an artifact the same name. -/
theorem Artifact.Among.under_eq {a : Artifact} (ha : a.Among t) (hagree : t.Agree ν ν') :
    a.under ν' = a.under ν := by
  cases a with
  | screenshot path test spec attemptIndex =>
    rw [Artifact.under, Artifact.under, hagree.under ha.1, hagree.under ha.2]
  | video path spec =>
    have hspec : spec.under ν' = spec.under ν := hagree.under ha
    rw [Artifact.under, Artifact.under, hspec]

/-- An artifact of rows that are there stays one as rows come in. -/
theorem Artifact.Among.mono {a : Artifact} (ha : a.Among t)
    (hgrows : ∀ table, t.idsOf table ⊆ t'.idsOf table) : a.Among t' := by
  cases a with
  | screenshot path test spec attemptIndex => exact ⟨hgrows _ ha.1, hgrows _ ha.2⟩
  | video path spec => exact hgrows .specs ha

namespace UploadsAlike

variable {us vs us' vs' : List Upload}

theorem nil (ν : Naming) (t : Tables) : UploadsAlike ν t [] [] :=
  ⟨[], rfl, rfl, fun _ h => absurd h List.not_mem_nil⟩

/-- Uploads stay alike when a naming is changed for rows that are made later. -/
theorem onward (h : UploadsAlike ν t us vs) (hon : Onward rules view ν t ν' t' g') :
    UploadsAlike ν' t' us vs := by
  obtain ⟨artifacts, hus, hvs, hamong⟩ := h
  refine ⟨artifacts, hus, hvs.trans (List.map_congr_left fun a ha => ?_), fun a ha => ?_⟩
  · rw [(hamong a ha).under_eq hon.agree]
  · exact (hamong a ha).mono hon.grows

/-- Uploads that are alike stay so one behind the other. -/
theorem append (h : UploadsAlike ν t us vs) (h' : UploadsAlike ν t us' vs') :
    UploadsAlike ν t (us ++ us') (vs ++ vs') := by
  obtain ⟨xs, rfl, rfl, hxs⟩ := h
  obtain ⟨ys, rfl, rfl, hys⟩ := h'
  refine ⟨xs ++ ys, List.map_append.symm, List.map_append.symm, fun a ha => ?_⟩
  exact (List.mem_append.mp ha).elim (hxs a) (hys a)

/-- The screenshots of a test are alike when its row and the spec's are. -/
theorem screenshots (results : SpecResults) (test : TestResult) {id : TestId} {spec : SpecId}
    (hid : t.Has id) (hspec : t.Has spec) :
    UploadsAlike ν t (results.screenshotUploads test id spec)
      (results.screenshotUploads test (id.under ν) (spec.under ν)) := by
  refine ⟨results.screenshotArtifacts test id spec, results.screenshotUploads_eq test id spec, ?_,
    fun a ha => ?_⟩
  · rw [SpecResults.screenshotUploads_eq, SpecResults.screenshotArtifacts_under, List.map_map]
    rfl
  -- a test has screenshots only if an attempt failed; each of them names the test and the spec
  · rw [SpecResults.screenshotArtifacts] at ha
    split at ha
    · obtain ⟨s, -, rfl⟩ := List.mem_map.mp ha
      exact ⟨hid, hspec⟩
    · exact absurd ha List.not_mem_nil

/-- The video of a spec is alike when the spec's row is. -/
theorem video (results : SpecResults) {spec : SpecId} (hspec : t.Has spec) :
    UploadsAlike ν t (results.videoUploads spec) (results.videoUploads (spec.under ν)) := by
  refine ⟨results.videoArtifacts spec, results.videoUploads_eq spec, ?_, fun a ha => ?_⟩
  · rw [SpecResults.videoUploads_eq, SpecResults.videoArtifacts_under, List.map_map]
    rfl
  · have hvideo : ∃ path, a = .video path spec := by
      rw [SpecResults.videoArtifacts] at ha
      cases hpath : results.video with
      | none =>
        rw [hpath] at ha
        exact absurd ha List.not_mem_nil
      | some path =>
        simp only [hpath] at ha
        split at ha
        · exact ⟨path, List.mem_singleton.mp ha⟩
        · exact absurd ha List.not_mem_nil
    obtain ⟨path, rfl⟩ := hvideo
    exact hspec

end UploadsAlike

/-! ## Events -/

section
variable (hserver : server.KeepsSchema rules view)
include hserver

/-- Both sides make the rows of the same tests, and stop at the same test if one fails. -/
theorem InStep.recordTests (h : InStep rules view ν t g) (results : SpecResults) {spec : SpecId}
    (hspec : t.Has spec) (tests : List TestResult) :
    ∃ result us vs t' ν' g', recordTests Tables.store results spec tests t = (result, us, t') ∧
      recordTests (Gateway.store server) results (spec.under ν) tests g = (result, vs, g') ∧
      UploadsAlike ν' t' us vs ∧ Onward rules view ν t ν' t' g' := by
  -- the row of the spec is there all along, so its name stays while tests are made
  induction tests generalizing ν t g with
  | nil => exact ⟨.ok (), [], [], t, ν, g, rfl, rfl, .nil ν t, .refl h⟩
  | cons test rest ih =>
    simp only [RunJournal.recordTests]
    obtain ⟨cause, hm, hp⟩ | ⟨id, t₁, ν₁, g₁, hm, hp, hserved, hon⟩ :=
      h.request hserver (q := .insertTest (test.row spec)) hspec trivial ⟨0, 0⟩
    · have hp : Gateway.store server (.insertTest (test.row (spec.under ν))) g = _ := hp
      simp only [hm, hp]
      exact ⟨_, _, _, _, _, _, rfl, rfl, .nil ν t, .refl h⟩
    · have hp : Gateway.store server (.insertTest (test.row (spec.under ν))) g = _ := hp
      have hspec₁ := hon.grows _ hspec
      obtain ⟨result, us, vs, t₂, ν₂, g₂, hm₂, hp₂, hus, hon₂⟩ := ih hon.inStep hspec₁
      rw [hon.agree.under hspec] at hp₂
      simp only [hm, hp, hm₂, hp₂]
      refine ⟨_, _, _, _, ν₂, _, rfl, rfl, .append ?_ hus, hon.trans hon₂⟩
      have hscreenshots := UploadsAlike.screenshots (ν := ν₁) results test hserved.has_test hspec₁
      rw [hon.agree.under hspec] at hscreenshots
      exact hscreenshots.onward hon₂

/-- A request without an answer is served alike. -/
theorem InStep.perform (h : InStep rules view ν t g) {q : Request}
    (hq : q.Refers fun id => t.Has id) (hfits : q.FitsColumns) (now : Timestamp) :
    ∃ result t' ν' g', perform Tables.store q t = (result, t') ∧
      perform (Gateway.store server) (q.under ν now) g = (result, g') ∧
      Onward rules view ν t ν' t' g' := by
  simp only [RunJournal.perform]
  obtain ⟨cause, hm, hp⟩ | ⟨answer, t', ν', g', hm, hp, -, hon⟩ := h.request hserver hq hfits now
  · simp only [hm, hp]
    exact ⟨_, _, ν, _, rfl, rfl, .refl h⟩
  · simp only [hm, hp]
    exact ⟨_, _, ν', _, rfl, rfl, hon⟩

/-- A request about a row that may be missing is served alike: it is missing on both sides or on
neither. -/
theorem InStep.performOn (h : InStep rules view ν t g) (missing : HookError) (now : Timestamp)
    (q q' : RowId table → Request) (hq' : ∀ id, (q id).under ν now = q' (id.under ν))
    (hfits : ∀ id, (q id).FitsColumns) {id : Option (RowId table)}
    (hid : ∀ a, id = some a → (q a).Refers fun id => t.Has id) :
    ∃ result t' ν' g', performOn Tables.store id missing q t = (result, t') ∧
      performOn (Gateway.store server) (id.map (·.under ν)) missing q' g = (result, g') ∧
      Onward rules view ν t ν' t' g' := by
  cases id with
  | none => exact ⟨.error missing, t, ν, g, rfl, rfl, .refl h⟩
  | some a =>
    have hperform := h.perform hserver (hid a rfl) (hfits a) now
    rw [hq'] at hperform
    exact hperform

end

namespace RunState.Mirrors

variable {identity : Identity} {r : RunState}

theorem has_attempt (h : r.Mirrors identity t) (ht : t.WellFormed) {a : AttemptId}
    (ha : r.attemptId = some a) : t.Has a := by
  obtain ⟨row, hrow, -⟩ := h.attempt a ha
  obtain ⟨hmem, rfl⟩ := ht.attempt?_eq_some_iff.mp hrow
  exact List.mem_map_of_mem hmem

theorem has_matrix (h : r.Mirrors identity t) (ht : t.WellFormed) {m : MatrixId}
    (hm : r.matrixId = some m) : t.Has m := by
  obtain ⟨a, row, -, hrow, -⟩ := h.matrix m hm
  obtain ⟨hmem, rfl⟩ := ht.matrix?_eq_some_iff.mp hrow
  exact List.mem_map_of_mem hmem

theorem has_spec (h : r.Mirrors identity t) (ht : t.WellFormed) {c : CurrentSpec}
    (hc : r.spec = some c) : t.Has c.id := by
  obtain ⟨m, row, -, hrow, -⟩ := h.spec c hc
  obtain ⟨hmem, hid⟩ := ht.spec?_eq_some_iff.mp hrow
  exact hid ▸ List.mem_map_of_mem hmem

/-- What is remembered keeps its names. -/
theorem under_congr (h : r.Mirrors identity t) (ht : t.WellFormed) (hagree : t.Agree ν ν') :
    r.under ν' = r.under ν := by
  rw [RunState.under, RunState.under]
  congr 1
  · exact Option.map_congr fun a ha => hagree.under (h.has_attempt ht ha)
  · exact Option.map_congr fun m hm => hagree.under (h.has_matrix ht hm)
  · refine Option.map_congr fun c hc => ?_
    rw [hagree.under (h.has_spec ht hc)]

end RunState.Mirrors

/-- Of all events only the end of a spec has counts. -/
def Event.FitsColumns : Event → Prop
  | .afterSpec _ results => (SpecSummary.ofStats results.stats).FitsColumns
  | _ => True

instance : (e : Event) → Decidable e.FitsColumns
  | .afterSpec _ results =>
    inferInstanceAs (Decidable (SpecSummary.ofStats results.stats).FitsColumns)
  | .beforeRun _ => .isTrue trivial
  | .beforeSpec _ => .isTrue trivial
  | .afterRun _ => .isTrue trivial

/-- An event does the same with a gateway as with tables in memory. -/
structure ReportsAlike (rules : ServerRules) (view : σ → Database) (ν : Naming) (t : Tables)
    (m : HookReport Tables) (p : HookReport (Link × σ)) (ν' : Naming) : Prop where
  outcome : p.outcome = m.outcome
  state : p.state = m.state.under ν'
  uploads : UploadsAlike ν' m.store m.uploads p.uploads
  onward : Onward rules view ν t ν' m.store p.store

section
variable (hserver : server.KeepsSchema rules view) (h : InStep rules view ν t g)
  {identity : Identity} {r : RunState} (hr : r.Mirrors identity t)
include hserver h hr

/-- The beginning of a run is reported alike. -/
theorem InStep.beforeRun (browser : String) :
    ∃ ν', ReportsAlike rules view ν t (beforeRun Tables.store identity browser r t)
      (beforeRun (Gateway.store server) identity browser (r.under ν) g) ν' := by
  simp only [RunJournal.beforeRun]
  obtain ⟨cause, hm, hp⟩ | ⟨a, t₁, ν₁, g₁, hm, hp, hserved, hon₁⟩ :=
    h.request hserver (q := .upsertAttempt (identity.attemptRow browser)) trivial trivial ⟨0, 0⟩
  · have hp : Gateway.store server (.upsertAttempt (identity.attemptRow browser)) g = _ := hp
    simp only [hm, hp]
    exact ⟨ν, rfl, rfl, .nil ν t, .refl h⟩
  · have hp : Gateway.store server (.upsertAttempt (identity.attemptRow browser)) g =
        (.ok (a.under ν₁), g₁) := hp
    simp only [hm, hp]
    obtain ⟨cause, hm, hp⟩ | ⟨m, t₂, ν₂, g₂, hm, hp, -, hon₂⟩ :=
      hon₁.inStep.request hserver (q := .upsertMatrix (identity.matrixRow a)) hserved.has_attempt
        trivial ⟨0, 0⟩
    · have hp : Gateway.store server (.upsertMatrix (identity.matrixRow (a.under ν₁))) g₁ = _ := hp
      simp only [hm, hp]
      -- the attempt is remembered although there is no shard
      refine ⟨ν₁, rfl, ?_, .nil ν₁ t₁, hon₁⟩
      rw [← hr.under_congr h.wellFormed hon₁.agree]
      rfl
    · have hp : Gateway.store server (.upsertMatrix (identity.matrixRow (a.under ν₁))) g₁ = _ := hp
      simp only [hm, hp]
      refine ⟨ν₂, rfl, ?_, .nil ν₂ t₂, hon₁.trans hon₂⟩
      rw [← hr.under_congr h.wellFormed (hon₁.trans hon₂).agree,
        ← hon₂.agree.under hserved.has_attempt]
      rfl

/-- The beginning of a spec is reported alike. -/
theorem InStep.beforeSpec (name : String) :
    ∃ ν', ReportsAlike rules view ν t (beforeSpec Tables.store name r t)
      (beforeSpec (Gateway.store server) name (r.under ν) g) ν' := by
  obtain ⟨browser, attemptId, matrixId, spec, finished⟩ := r
  -- without a matrix there is no request on either side
  cases matrixId with
  | none => exact ⟨ν, rfl, rfl, .nil ν t, .refl h⟩
  | some matrix =>
    simp only [RunJournal.beforeSpec, RunState.under, Option.map_some]
    obtain ⟨cause, hm, hp⟩ | ⟨id, t₁, ν₁, g₁, hm, hp, -, hon⟩ :=
      h.request hserver (q := .insertSpec name matrix) (hr.has_matrix h.wellFormed rfl) trivial
        ⟨0, 0⟩
    · have hp : Gateway.store server (.insertSpec name (matrix.under ν)) g = _ := hp
      simp only [hm, hp]
      exact ⟨ν, rfl, rfl, .nil ν t, .refl h⟩
    · have hp : Gateway.store server (.insertSpec name (matrix.under ν)) g =
          (.ok (id.under ν₁), g₁) := hp
      simp only [hm, hp]
      have hstate := hr.under_congr h.wellFormed hon.agree
      refine ⟨ν₁, rfl, ?_, .nil ν₁ t₁, hon⟩
      exact (congrArg (fun r : RunState => { r with spec := some ⟨name, id.under ν₁⟩ }) hstate).symm

/-- The end of a spec is reported alike when its counts fit their columns. -/
theorem InStep.afterSpec (name : String) (results : SpecResults)
    (hfits : (SpecSummary.ofStats results.stats).FitsColumns) :
    ∃ ν', ReportsAlike rules view ν t (afterSpec Tables.store name results r t)
      (afterSpec (Gateway.store server) name results (r.under ν) g) ν' := by
  obtain ⟨browser, attemptId, matrixId, spec, finished⟩ := r
  -- without a spec there is no request on either side
  cases spec with
  | none => exact ⟨ν, rfl, rfl, .nil ν t, .refl h⟩
  | some current =>
    have hspec : t.Has current.id := hr.has_spec h.wellFormed rfl
    simp only [RunJournal.afterSpec, RunState.under, Option.map_some]
    obtain ⟨cause, hm, hp⟩ | ⟨answer, t₁, ν₁, g₁, hm, hp, -, hon₁⟩ :=
      h.request hserver (q := .completeSpec current.id (.ofStats results.stats)) hspec hfits ⟨0, 0⟩
    · have hp : Gateway.store server
          (.completeSpec (current.id.under ν) (.ofStats results.stats)) g = _ := hp
      simp only [hm, hp]
      exact ⟨ν, rfl, rfl, .nil ν t, .refl h⟩
    · have hp : Gateway.store server
          (.completeSpec (current.id.under ν) (.ofStats results.stats)) g = (.ok (), g₁) := hp
      obtain ⟨result, us, vs, t₂, ν₂, g₂, hm₂, hp₂, hus, hon₂⟩ :=
        hon₁.inStep.recordTests hserver results (hon₁.grows _ hspec) results.tests
      rw [hon₁.agree.under hspec] at hp₂
      simp only [hm, hp, hm₂, hp₂]
      have hon := hon₁.trans hon₂
      have hstate := hr.under_congr h.wellFormed hon.agree
      refine ⟨ν₂, rfl, hstate.symm, .append hus ?_, hon⟩
      -- the video comes last, and only if every test has a row
      cases result with
      | error cause => exact .nil ν₂ t₂
      | ok _ =>
        rw [← hon.agree.under hspec]
        exact .video results (hon.grows _ hspec)

/-- The end of a run is reported alike, whatever the two clocks say. -/
theorem InStep.afterRun (now now' : Timestamp) :
    ∃ ν', ReportsAlike rules view ν t (afterRun Tables.store now r t)
      (afterRun (Gateway.store server) now' (r.under ν) g) ν' := by
  -- each of the three requests is made whatever became of those before it
  obtain ⟨matrix, t₁, ν₁, g₁, hm₁, hp₁, hon₁⟩ := h.performOn hserver .missingMatrix now'
    .finishMatrix .finishMatrix (fun _ => rfl) (fun _ => trivial)
    fun _ hm => hr.has_matrix h.wellFormed hm
  obtain ⟨attempt, t₂, ν₂, g₂, hm₂, hp₂, hon₂⟩ := hon₁.inStep.performOn hserver .missingAttempt now'
    (.finishAttempt · now) (.finishAttempt · now') (fun _ => rfl) (fun _ => trivial)
    fun _ ha => hon₁.grows _ (hr.has_attempt h.wellFormed ha)
  obtain ⟨close, t₃, ν₃, g₃, hm₃, hp₃, hon₃⟩ :=
    hon₂.inStep.perform hserver (q := .close) trivial trivial now'
  have hattempt : r.attemptId.map (·.under ν₁) = r.attemptId.map (·.under ν) :=
    congrArg RunState.attemptId (hr.under_congr h.wellFormed hon₁.agree)
  rw [hattempt] at hp₂
  have hp₁ : RunJournal.performOn (Gateway.store server) (r.under ν).matrixId .missingMatrix
      .finishMatrix g = _ := hp₁
  have hp₂ : RunJournal.performOn (Gateway.store server) (r.under ν).attemptId .missingAttempt
      (.finishAttempt · now') g₁ = _ := hp₂
  have hp₃ : RunJournal.perform (Gateway.store server) .close g₂ = _ := hp₃
  simp only [RunJournal.afterRun, hm₁, hp₁, hm₂, hp₂, hm₃, hp₃]
  have hon := (hon₁.trans hon₂).trans hon₃
  have hstate := hr.under_congr h.wellFormed hon.agree
  refine ⟨ν₃, rfl, ?_, .nil ν₃ t₃, hon⟩
  rw [← hstate]
  rfl

/-- **An event does the same with a gateway as with tables in memory.** -/
theorem InStep.recordEvent {e : Event} (hfits : e.FitsColumns) (now now' : Timestamp) :
    ∃ ν', ReportsAlike rules view ν t (recordEvent Tables.store identity now e r t)
      (recordEvent (Gateway.store server) identity now' e (r.under ν) g) ν' := by
  cases e with
  | beforeRun browser => exact h.beforeRun hserver hr browser
  | beforeSpec name => exact h.beforeSpec hserver hr name
  | afterSpec name results => exact h.afterSpec hserver hr name results hfits
  | afterRun details => exact h.afterRun hserver hr now now'

end

/-! ## Runs -/

/-- What a recorder has come to after events, and the outcome of each. -/
structure History (σ : Type) where
  outcomes : List Outcome
  /-- The uploads submitted, in order. -/
  uploads : List Upload
  state : RunState
  store : σ

/-- Records events one after the other, each at a time of its own. -/
def History.record (store : Store σ) (identity : Identity) :
    List (Timestamp × Event) → RunState → σ → History σ
  | [], r, s => ⟨[], [], r, s⟩
  | (now, e) :: rest, r, s =>
    let report := recordEvent store identity now e r s
    let later := History.record store identity rest report.state report.store
    { later with
      outcomes := report.outcome :: later.outcomes
      uploads := report.uploads ++ later.uploads }

/-- A recorder with a gateway has come to the same as one with tables in memory, but for the names
of rows and for times. -/
structure History.Refines (rules : ServerRules) (view : σ → Database) (ν : Naming)
    (m : History Tables) (p : History (Link × σ)) : Prop where
  outcomes : p.outcomes = m.outcomes
  state : p.state = m.state.under ν
  tables : Copies rules ν m.store (view p.store.2)
  uploads : ∃ artifacts : List Artifact, m.uploads = artifacts.map Artifact.upload ∧
    p.uploads = artifacts.map fun a => (a.under ν).upload

/-- **Stores that are in step stay in step through any events.** -/
theorem InStep.record (hserver : server.KeepsSchema rules view) (h : InStep rules view ν t g)
    {identity : Identity} {r : RunState} (hr : r.Mirrors identity t)
    {events events' : List (Timestamp × Event)}
    (hsame : events'.map Prod.snd = events.map Prod.snd)
    (hfits : ∀ x ∈ events, x.2.FitsColumns) :
    ∃ ν', (History.record (Gateway.store server) identity events' (r.under ν) g).outcomes =
        (History.record Tables.store identity events r t).outcomes ∧
      (History.record (Gateway.store server) identity events' (r.under ν) g).state =
        (History.record Tables.store identity events r t).state.under ν' ∧
      UploadsAlike ν' (History.record Tables.store identity events r t).store
        (History.record Tables.store identity events r t).uploads
        (History.record (Gateway.store server) identity events' (r.under ν) g).uploads ∧
      Onward rules view ν t ν' (History.record Tables.store identity events r t).store
        (History.record (Gateway.store server) identity events' (r.under ν) g).store := by
  -- along the first list; the second is taken apart with it, since the events are the same
  induction events generalizing events' ν t g r with
  | nil =>
    rw [List.map_eq_nil_iff.mp hsame]
    exact ⟨ν, rfl, rfl, .nil ν t, .refl h⟩
  | cons first rest ih =>
    obtain ⟨now, e⟩ := first
    cases events' with
    | nil => cases hsame
    | cons first' rest' =>
      obtain ⟨now', e'⟩ := first'
      rw [List.map_cons, List.map_cons, List.cons.injEq] at hsame
      obtain ⟨rfl, hsame⟩ := hsame
      obtain ⟨ν₁, halike⟩ := h.recordEvent hserver hr (hfits _ List.mem_cons_self) now now'
      have hr₁ := Tables.store_backedBy.mirrors_recordEvent now e' h.wellFormed hr
      obtain ⟨ν₂, houtcomes, hstate, huploads, hon⟩ := ih halike.onward.inStep hr₁ hsame
        fun x hx => hfits x (List.mem_cons_of_mem _ hx)
      rw [← halike.state] at houtcomes hstate huploads hon
      refine ⟨ν₂, ?_, hstate, ?_, halike.onward.trans hon⟩
      · exact congrArg₂ List.cons halike.outcome houtcomes
      · exact (halike.uploads.onward hon).append huploads

/-- A naming that leaves everything as it is. -/
def Naming.plain : Naming := ⟨fun _ => id, fun _ => Function.injective_id⟩

/-- **A gateway refines tables in memory.** With a server that keeps the schema and never fails, a
recorder that begins on empty tables comes to the same as one with tables in memory that is given
the same events, if no count is too great for its column: the same outcomes, and the same state,
rows and uploads but for the names of rows. The end of the run may be among the events more than
once, and anywhere. -/
theorem Gateway.refines_tables (hserver : server.KeepsSchema rules view) {s : σ}
    (hempty : view s = .empty) (identity : Identity) {events events' : List (Timestamp × Event)}
    (hsame : events'.map Prod.snd = events.map Prod.snd)
    (hfits : ∀ x ∈ events, x.2.FitsColumns) :
    ∃ ν, History.Refines rules view ν (.record Tables.store identity events .initial .empty)
      (.record (Gateway.store server) identity events' .initial (.live, s)) := by
  have hstart : InStep rules view .plain .empty (.live, s) := by
    refine ⟨Tables.wellFormed_empty, ?_, rfl⟩
    show Copies rules .plain .empty (view s)
    rw [hempty]
    exact ⟨rfl, rfl, rfl, rfl⟩
  obtain ⟨ν, houtcomes, hstate, ⟨artifacts, hus, hvs, -⟩, hon⟩ :=
    hstart.record hserver (RunState.mirrors_initial identity .empty) hsame hfits
  exact ⟨ν, houtcomes, hstate, hon.inStep.copies, artifacts, hus, hvs⟩

/-! ## A server -/

namespace Database

/-- An identifier that no row of the table has. It is never the next one, as when an insertion that
came to nothing has taken that. -/
def freeId (d : Database) : RowId table := ⟨(((d.ids table).map Int.natAbs).sup + 2 : Nat)⟩

/-- The id that the sample server takes is above all ids that there are. -/
theorem not_has_freeId (d : Database) : ¬ d.Has (d.freeId : RowId table) := by
  intro hmem
  -- it is one more than the greatest absolute value, so a negative id cannot equal it either
  have hle := Multiset.le_sup (Multiset.mem_map_of_mem Int.natAbs hmem)
  simp only [freeId, Int.natAbs_natCast] at hle
  omega

/-- A server that keeps the schema. -/
def sampleServer : Server Database where
  reach d := (.ok (), d)
  encrypts d := (true, d)
  login _ _ _ d := (.ok (), d)
  execute
    | .insertAttempt row, d =>
      if row.key ∈ d.attempts.map (·.values.key) then (.ok [], d)
      else (.ok [(d.freeId : AttemptId).value], d.addAttempt d.freeId row)
    | .selectAttempt workflowId attempt, d =>
      (.ok ((d.attempts.filter (·.values.key = (workflowId, attempt))).map (·.id.value)).sort, d)
    | .insertMatrix row, d =>
      if row.key ∈ d.matrices.map (·.values.key) then (.ok [], d)
      else if row.attemptId.value ∈ d.ids .attempt then
        (.ok [(d.freeId : MatrixId).value], d.addMatrix d.freeId row)
      else (.error (.refused "no such attempt"), d)
    | .selectMatrix matrixId attempt, d =>
      (.ok ((d.matrices.filter (·.values.key = (matrixId, attempt))).map (·.id.value)).sort, d)
    | .insertSpec name matrix, d =>
      if matrix.value ∈ d.ids .matrix then
        (.ok [(d.freeId : SpecId).value], d.addSpec d.freeId name matrix)
      else (.error (.refused "no such shard"), d)
    | .completeSpec spec summary, d => (.ok [], d.setSummary spec summary)
    | .insertTest row, d =>
      if row.specId.value ∈ d.ids .specs then
        (.ok [(d.freeId : TestId).value], d.addTest d.freeId row)
      else (.error (.refused "no such spec"), d)
    | .finishMatrix matrix, d => (.ok [], d.markDone matrix)
    | .finishAttempt attempt endTime, d => (.ok [], d.setEndTime attempt endTime)
    | .define _, d => (.ok [], d)
  hangUp d := (.ok (), d)

/-- The sample server does what each statement says. -/
theorem executes_sampleServer (q : Statement) (d : Database) :
    d.Executes .plain q (sampleServer.execute q d).1 (sampleServer.execute q d).2 := by
  -- it makes a row when the key is free and the reference is there, as the schema has it
  cases q with
  | insertAttempt row =>
    simp only [sampleServer]
    split_ifs with htaken
    · obtain ⟨r, hmem, hkey⟩ := Multiset.mem_map.mp htaken
      exact .attemptTaken hmem hkey
    · refine .attemptMade d.freeId (fun r hmem hkey => htaken ?_) d.not_has_freeId
      exact Multiset.mem_map.mpr ⟨r, hmem, hkey⟩
  | selectAttempt workflowId attempt => exact .attemptSelected _ (Multiset.sort_eq _ _).symm
  | insertMatrix row =>
    simp only [sampleServer]
    split_ifs with htaken hattempt
    · obtain ⟨r, hmem, hkey⟩ := Multiset.mem_map.mp htaken
      exact .matrixTaken hmem hkey
    · refine .matrixMade d.freeId (fun r hmem hkey => htaken ?_) d.not_has_freeId fun _ => hattempt
      exact Multiset.mem_map.mpr ⟨r, hmem, hkey⟩
    · refine .matrixRefused trivial (fun r hmem hkey => htaken ?_) hattempt
      exact Multiset.mem_map.mpr ⟨r, hmem, hkey⟩
  | selectMatrix matrixId attempt => exact .matrixSelected _ (Multiset.sort_eq _ _).symm
  | insertSpec name matrix =>
    simp only [sampleServer]
    split_ifs with hmatrix
    · exact .specMade d.freeId d.not_has_freeId fun _ => hmatrix
    · exact .specRefused trivial hmatrix
  | completeSpec spec summary => exact .specCompleted
  | insertTest row =>
    simp only [sampleServer]
    split_ifs with hspec
    · exact .testMade d.freeId d.not_has_freeId fun _ => hspec
    · exact .testRefused trivial hspec
  | finishMatrix matrix => exact .matrixFinished
  | finishAttempt attempt endTime => exact .attemptFinished
  | define text => exact .defined

theorem keepsSchema_sampleServer : sampleServer.KeepsSchema .plain id :=
  ⟨executes_sampleServer, fun _ => ⟨rfl, rfl⟩⟩

end Database

/-- A run that is started twice and goes on after its end, each event at the same time. -/
def restartedRun (now : Timestamp) : List (Timestamp × Event) :=
  [.beforeRun "chrome", .beforeRun "firefox", .beforeSpec "x.ts",
    .afterSpec "x.ts" ⟨⟨1, 0, 1, 0, 0⟩, [⟨"r1", ["A", "b"], "failed", [⟨"failed", []⟩]⟩],
      [⟨"x.png", "r1", 0⟩], some "x.mp4"⟩,
    .afterRun none, .beforeSpec "y.ts"].map (now, ·)

/-- Both stores take the run alike, and the uploads differ in the names of rows. -/
theorem Gateway.refines_tables_restartedRun :
    Database.sampleServer.KeepsSchema .plain id ∧
      (restartedRun ⟨7, 0⟩).map Prod.snd = (restartedRun ⟨0, 0⟩).map Prod.snd ∧
      (∀ x ∈ restartedRun ⟨0, 0⟩, x.2.FitsColumns) ∧
      (History.record Tables.store .sample (restartedRun ⟨0, 0⟩) .initial .empty).outcomes =
        [.recorded, .recorded, .recorded, .recorded, .recorded, .failed] ∧
      (History.record Tables.store .sample (restartedRun ⟨0, 0⟩) .initial .empty).uploads =
        [⟨.screenshot, "x.png", "4_3_1"⟩, ⟨.video, "x.mp4", "3"⟩] ∧
      ∃ ν, History.Refines .plain id ν
        (.record Tables.store .sample (restartedRun ⟨0, 0⟩) .initial .empty)
        (.record (Gateway.store Database.sampleServer) .sample (restartedRun ⟨7, 0⟩) .initial
          (.live, .empty)) := by
  have hfits : ∀ x ∈ restartedRun ⟨0, 0⟩, x.2.FitsColumns := by decide
  refine ⟨Database.keepsSchema_sampleServer, rfl, hfits, by decide +kernel, by decide +kernel, ?_⟩
  exact Gateway.refines_tables Database.keepsSchema_sampleServer rfl .sample rfl hfits

end RunJournal
