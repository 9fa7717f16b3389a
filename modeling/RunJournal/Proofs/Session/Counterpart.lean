import RunJournal.Proofs.Session.Renaming

/-!
# Recorders and their counterparts

A recorder that shares its tables has a counterpart: a recorder of the same identity that has tables
of its own. While nothing fails and no run ends, an event does one of five things
(`EventEffect`), and it does the same to both.

- An event of one recorder leaves the rows of every other one as they are, if their keys differ
  (`EventEffect.shard_eq`).
- A recorder and its counterpart stay in step: `Matches` says that what the one remembers and the
  rows that belong to it are those of the other, but for a renaming of identifiers, and
  `Matches.step` that an event of both keeps it. The renaming is not the same afterwards. Each
  event that makes rows extends it, by what the two stores have numbered these rows with.
-/

namespace RunJournal

/-- What an event other than the end of the run does to a recorder and to tables that are open. -/
inductive EventEffect (identity : Identity) (r : RunState) (t : Tables) :
    Event → Outcome → RunState → Tables → Prop where
  | run {browser : String} {attempt : AttemptId} {matrix : MatrixId} {t₁ t₂ : Tables}
      (hattempt : t.Served (.upsertAttempt (identity.attemptRow browser)) attempt t₁)
      (hmatrix : t₁.Served (.upsertMatrix (identity.matrixRow attempt)) matrix t₂) :
      EventEffect identity r t (.beforeRun browser) .recorded
        { r with browser := some browser, attemptId := some attempt, matrixId := some matrix } t₂
  | specRefused {name : String} (hmatrix : r.matrixId = none) :
      EventEffect identity r t (.beforeSpec name) .failed { r with spec := none } t
  | specBegun {name : String} {matrix : MatrixId} (hmatrix : r.matrixId = some matrix) :
      EventEffect identity r t (.beforeSpec name) .recorded
        { r with spec := some ⟨name, t.freshId⟩ } (t.addSpec name matrix)
  | endRefused {name : String} {results : SpecResults} (hspec : r.spec = none) :
      EventEffect identity r t (.afterSpec name results) .failed r t
  | specEnded {name : String} {results : SpecResults} {current : CurrentSpec}
      (hspec : r.spec = some current) :
      EventEffect identity r t (.afterSpec name results) .recorded r
        ((t.setSummary current.id (.ofStats results.stats)).addTests current.id results.tests)

variable {identity : Identity} {r r' : RunState} {t t' : Tables} {e : Event} {outcome : Outcome}

/-! ## Upserts -/

namespace Tables.Served

theorem attempts_eq {row : NewMatrix} {id : MatrixId} (h : t.Served (.upsertMatrix row) id t') :
    t'.attempts = t.attempts := by
  cases h <;> rfl

/-- Whoever asks for an attempt, no shard is made. -/
theorem shard_eq {row : NewAttempt} {id : AttemptId} (h : t.Served (.upsertAttempt row) id t')
    (ht : t.WellFormed) : t'.shard identity = t.shard identity := by
  cases h with
  | attemptFound hmem hkey => rfl
  | attemptMade hnew => exact shard_addAttempt ht row

end Tables.Served

/-- Rows that a recorder remembers are found again when its run is started over. -/
theorem RunState.Mirrors.served_again (h : r.Mirrors identity t) (ht : t.WellFormed)
    {browser : String} {a : AttemptId} {m k : MatrixId} {t₁ t₂ : Tables} (hk : r.matrixId = some k)
    (hattempt : t.Served (.upsertAttempt (identity.attemptRow browser)) a t₁)
    (hmatrix : t₁.Served (.upsertMatrix (identity.matrixRow a)) m t₂) :
    r.attemptId = some a ∧ k = m ∧ t₂ = t := by
  obtain ⟨b, row, hb, hrow, hrow_key⟩ := h.matrix k hk
  cases hattempt with
  | attemptFound hmem hkey =>
    cases h.attemptId_eq ht hb (ht.attempt?_eq_some_iff.mpr ⟨hmem, rfl⟩) hkey
    cases hmatrix with
    | matrixFound hmem hkey =>
      exact ⟨hb, h.matrixId_eq ht hb hk (ht.matrix?_eq_some_iff.mpr ⟨hmem, rfl⟩) hkey, rfl⟩
    | matrixMade hnew hattempt =>
      exact absurd hrow_key (hnew row (ht.matrix?_eq_some_iff.mp hrow).1)
  | attemptMade hnew =>
    obtain ⟨attempt, hattempt, hattempt_key⟩ := h.attempt b hb
    exact absurd hattempt_key (hnew attempt (ht.attempt?_eq_some_iff.mp hattempt).1)

/-- A recorder that has no rows yet gets a shard of its own when its run is started. -/
theorem Tables.Served.matrix_made (ht : t.WellFormed) (hnone : t.shardMatrices identity = [])
    {browser : String} {a : AttemptId} {m : MatrixId} {t₁ t₂ : Tables}
    (hattempt : t.Served (.upsertAttempt (identity.attemptRow browser)) a t₁)
    (hmatrix : t₁.Served (.upsertMatrix (identity.matrixRow a)) m t₂) :
    m = t₁.freshId ∧ t₂ = t₁.addMatrix (identity.matrixRow a) ∧
      t₁.isShardOf identity (identity.matrixRow a) = true := by
  obtain ⟨attempt, hfind, hkey⟩ := hattempt.attempt? ht
  have hown {row : NewMatrix} (hrow : row.key = (identity.matrixId, a)) :
      t₁.isShardOf identity row = true := (isShardOf_iff hfind hkey hrow).mpr rfl
  cases hmatrix with
  | matrixFound hmem hrow =>
    have hshard : t₁.shardMatrices identity = [] :=
      (congrArg ShardRows.matrices (hattempt.shard_eq ht)).trans hnone
    exact absurd (hown hrow) (List.filter_eq_nil_iff.mp hshard _ hmem)
  | matrixMade hnew hattempt => exact ⟨rfl, rfl, hown rfl⟩

/-! ## Events -/

/-- While the tables are open and a recorder mirrors them, an event does nothing else. -/
theorem eventEffect_recordEvent (now : Timestamp) (he : e.kind ≠ .afterRun)
    (hopen : t.closed = false) (ht : t.WellFormed) (hr : r.Mirrors identity t) :
    EventEffect identity r t e (recordEvent Tables.store identity now e r t).outcome
      (recordEvent Tables.store identity now e r t).state
      (recordEvent Tables.store identity now e r t).store := by
  cases e with
  | beforeRun browser =>
    obtain ⟨attempt, t₁, hattempt, hhas, hkept⟩ :=
      Tables.store_upsertAttempt_open (identity.attemptRow browser) hopen
    obtain ⟨matrix, t₂, hmatrix, -, -⟩ :=
      Tables.store_upsertMatrix_open (identity.matrixRow attempt) hkept.isOpen hhas
    simp only [recordEvent, beforeRun, hattempt, hmatrix]
    exact .run (Tables.served_of_store hattempt) (Tables.served_of_store hmatrix)
  | beforeSpec name =>
    cases hm : r.matrixId with
    | none =>
      rw [recordEvent, beforeSpec]
      simp only [hm]
      have heffect : EventEffect identity r t (.beforeSpec name) .failed { r with spec := none } t :=
        .specRefused hm
      rwa [hm] at heffect
    | some matrix =>
      -- the remembered shard has its row, so that the store cannot refuse the spec
      obtain ⟨a, row, -, hrow, -⟩ := hr.matrix matrix hm
      obtain ⟨hmem, hid⟩ := ht.matrix?_eq_some_iff.mp hrow
      have hhas : t.hasMatrix matrix = true :=
        Tables.hasMatrix_iff.mpr (hid ▸ List.mem_map_of_mem hmem)
      rw [recordEvent, beforeSpec_open name hopen hm hhas]
      exact .specBegun hm
  | afterSpec name results =>
    cases hc : r.spec with
    | none =>
      rw [recordEvent, afterSpec]
      simp only [hc]
      exact .endRefused hc
    | some current =>
      -- the remembered spec has its row as well
      obtain ⟨m, row, -, hrow, -, -⟩ := hr.spec current hc
      obtain ⟨hmem, hid⟩ := ht.spec?_eq_some_iff.mp hrow
      have hhas : t.hasSpec current.id = true :=
        Tables.hasSpec_iff.mpr (hid ▸ List.mem_map_of_mem hmem)
      obtain ⟨uploads, notices, hreport⟩ := afterSpec_open name results hopen hc hhas
      rw [recordEvent, hreport]
      exact .specEnded hc
  | afterRun details => exact absurd rfl he

namespace EventEffect

/-- **An event leaves the rows of others alone.** -/
theorem shard_eq (h : EventEffect identity r t e outcome r' t') (ht : t.WellFormed)
    (hr : r.Mirrors identity t) {other : Identity} (hne : other.shardKey ≠ identity.shardKey) :
    t'.shard other = t.shard other := by
  cases h with
  | run hattempt hmatrix =>
    obtain ⟨attempt, hfind, hkey⟩ := hattempt.attempt? ht
    rw [← hattempt.shard_eq ht]
    cases hmatrix with
    | matrixFound hmem hrow => rfl
    | matrixMade hnew hhas =>
      refine Tables.shard_addMatrix_other (Bool.eq_false_iff.mpr fun hown => hne ?_)
      exact (Tables.isShardOf_iff hfind hkey rfl).mp hown
  | specRefused hmatrix => rfl
  | specBegun hmatrix =>
    exact Tables.shard_addSpec_other ((hr.matrix_mem_shard_iff ht hmatrix).not.mpr hne)
  | endRefused hspec => rfl
  | @specEnded name results current hspec =>
    have hother := (hr.spec_mem_shard_iff ht hspec).not.mpr hne
    have hsummary := Tables.shard_setSummary_other hother (.ofStats results.stats)
    rw [← Tables.shardSpecs_ids_setSummary current.id (.ofStats results.stats)] at hother
    exact (Tables.shard_addTests_other hother _).trans hsummary

theorem closed_eq (h : EventEffect identity r t e outcome r' t') : t'.closed = t.closed := by
  cases h with
  | run hattempt hmatrix => cases hattempt <;> cases hmatrix <;> rfl
  | specRefused hmatrix => rfl
  | specBegun hmatrix => rfl
  | endRefused hspec => rfl
  | specEnded hspec => rfl

theorem lastId_le (h : EventEffect identity r t e outcome r' t') : t.lastId ≤ t'.lastId := by
  cases h with
  | run hattempt hmatrix => exact Nat.le_trans hattempt.extends.lastId hmatrix.extends.lastId
  | specRefused hmatrix => exact Nat.le_refl _
  | specBegun hmatrix => exact Nat.le_succ _
  | endRefused hspec => exact Nat.le_refl _
  | specEnded hspec => exact Nat.le_add_right _ _

/-- The start of a run is what makes an attempt, and the only thing. -/
theorem mem_attemptKeys_iff (h : EventEffect identity r t e outcome r' t') (key : Int × Int) :
    key ∈ t'.attempts.map (·.values.key) ↔
      key ∈ t.attempts.map (·.values.key) ∨ e.kind = .beforeRun ∧ identity.attemptKey = key := by
  -- only the beginning of a run asks for an attempt, and finds it or makes it
  cases h with
  | run hattempt hmatrix =>
    rw [hmatrix.attempts_eq]
    cases hattempt with
    | attemptFound hmem hkey =>
      have hown : identity.attemptKey ∈ t.attempts.map (·.values.key) :=
        List.mem_map.mpr ⟨_, hmem, hkey⟩
      constructor
      · exact .inl
      · rintro (hold | ⟨-, rfl⟩)
        · exact hold
        · exact hown
    | attemptMade hnew =>
      rw [Tables.addAttempt, List.map_append, List.mem_append, List.map_singleton,
        List.mem_singleton, eq_comm (a := key)]
      exact or_congr_right ⟨fun hkey => ⟨rfl, hkey⟩, And.right⟩
  | specRefused hmatrix => simp [Event.kind]
  | specBegun hmatrix => simp [Event.kind, Tables.addSpec]
  | endRefused hspec => simp [Event.kind]
  | specEnded hspec => simp [Event.kind, Tables.addTests, Tables.setSummary]

end EventEffect

/-! ## Counterparts -/

/-- A recorder `r` with shared tables `t` is in step with its counterpart `ra` with the tables `ta`,
by a renaming of identifiers: it remembers the same, and the rows that belong to it are all the rows
that the counterpart has. -/
structure Matches (identity : Identity) (ρ : Int → Int) (ra : RunState) (ta : Tables)
    (r : RunState) (t : Tables) : Prop where
  strictMono : StrictMono ρ
  lastId : ρ ta.lastId ≤ t.lastId
  state : r = ra.rename ρ
  rows : t.shard identity = ta.rows.rename ρ
  /-- The counterpart has no rows before it has a shard. -/
  idle : ra.matrixId = none → ta.lastId = 0

namespace Matches

variable {ρ : Int → Int} {ra ra' : RunState} {ta ta' : Tables} {outcomea : Outcome}

theorem matrixId (h : Matches identity ρ ra ta r t) :
    r.matrixId = ra.matrixId.map (·.rename ρ) := congrArg RunState.matrixId h.state

theorem spec (h : Matches identity ρ ra ta r t) :
    r.spec = ra.spec.map fun c => { c with id := c.id.rename ρ } := congrArg RunState.spec h.state

/-- The renaming between rows that are made next. -/
theorem renumber (h : Matches identity ρ ra ta r t) (hta : ta.WellFormed)
    (hra : ra.Mirrors identity ta) :
    Matches identity (renumber ρ ta.lastId t.lastId) ra ta r t := by
  have hold : ∀ k ≤ (ta.lastId : Int), ρ k = RunJournal.renumber ρ ta.lastId t.lastId k :=
    fun k hk => (renumber_of_le hk).symm
  refine ⟨strictMono_renumber h.strictMono h.lastId, ?_, ?_, ?_, h.idle⟩
  · rw [← hold _ (Int.le_refl _)]
    exact h.lastId
  · rw [← hra.rename_congr hta hold]
    exact h.state
  · rw [← hta.rows_rename_congr hold]
    exact h.rows

/-- What leaves the rows of a recorder alone leaves it in step. -/
theorem frame (h : Matches identity ρ ra ta r t) (hshard : t'.shard identity = t.shard identity)
    (hlast : t.lastId ≤ t'.lastId) : Matches identity ρ ra ta r t' :=
  ⟨h.strictMono, Int.le_trans h.lastId (Int.ofNat_le.mpr hlast), h.state, hshard.trans h.rows,
    h.idle⟩

/-- A run that is started over makes no rows. -/
theorem run_again (h : Matches identity ρ ra ta r t) (browser : String) :
    Matches identity ρ { ra with browser := some browser } ta { r with browser := some browser } t :=
  ⟨h.strictMono, h.lastId, by rw [h.state]; rfl, h.rows, h.idle⟩

theorem forgetSpec (h : Matches identity ρ ra ta r t) :
    Matches identity ρ { ra with spec := none } ta { r with spec := none } t :=
  ⟨h.strictMono, h.lastId, by rw [h.state]; rfl, h.rows, h.idle⟩

/-- A counterpart that has no shard yet has no rows at all. -/
theorem rows_eq_of_idle (h : Matches identity ρ ra ta r t) (hta : ta.WellFormed)
    (hm : ra.matrixId = none) : ta.attempts = [] ∧ ta.rows = ⟨[], [], []⟩ := by
  have hids : ta.ids = [] := by
    refine List.eq_nil_iff_forall_not_mem.mpr fun id hid => ?_
    have hbounds := (hta.mem_ids id).mp hid
    rw [h.idle hm] at hbounds
    omega
  simp only [Tables.ids, List.append_eq_nil_iff, List.map_eq_nil_iff] at hids
  obtain ⟨⟨⟨hattempts, hmatrices⟩, hspecs⟩, htests⟩ := hids
  refine ⟨hattempts, ?_⟩
  rw [Tables.rows, hmatrices, hspecs, htests]

/-- A run that is started first for both gets a shard in both tables. The counterpart has made its
attempt just before. The recorder may have found one that is as old as can be, so this is where the
renaming starts anew. -/
theorem runBegun (h : Matches identity ρ ra ta r t) (hta : ta.WellFormed) (ht : t.WellFormed)
    (hra : ra.Mirrors identity ta) (hm : ra.matrixId = none) {browser : String}
    {aa a : AttemptId} {ma m : MatrixId} {ta₁ ta₂ t₁ t₂ : Tables}
    (hattempta : ta.Served (.upsertAttempt (identity.attemptRow browser)) aa ta₁)
    (hmatrixa : ta₁.Served (.upsertMatrix (identity.matrixRow aa)) ma ta₂)
    (hattempt : t.Served (.upsertAttempt (identity.attemptRow browser)) a t₁)
    (hmatrix : t₁.Served (.upsertMatrix (identity.matrixRow a)) m t₂) :
    ∃ ρ', Matches identity ρ'
      { ra with browser := some browser, attemptId := some aa, matrixId := some ma } ta₂
      { r with browser := some browser, attemptId := some a, matrixId := some m } t₂ := by
  obtain ⟨hattempts, hrows⟩ := h.rows_eq_of_idle hta hm
  have hmatrices : ta.matrices = [] := congrArg ShardRows.matrices hrows
  have hshard : t.shard identity = ⟨[], [], []⟩ := by
    rw [h.rows, hrows]
    rfl
  cases hattempta with
  | attemptFound hmem hkey =>
    rw [hattempts] at hmem
    exact absurd hmem List.not_mem_nil
  | attemptMade hnew =>
    cases hmatrixa with
    | matrixFound hmem hkey =>
      rw [Tables.addAttempt, hmatrices] at hmem
      exact absurd hmem List.not_mem_nil
    | matrixMade hnewa hhas =>
      obtain ⟨rfl, rfl, hown⟩ := Tables.Served.matrix_made ht
        (congrArg ShardRows.matrices hshard) hattempt hmatrix
      have ht₁ := hattempt.wellFormed ht
      have ha : a.value ≤ t₁.lastId := by
        obtain ⟨row, hrow, -⟩ := hattempt.attempt? ht
        exact ((ht₁.mem_ids _).mp (ht₁.mem_ids_of_attempt? hrow)).2
      -- the attempt of the counterpart goes to the one that was found or made, the rest follows
      let ρ₁ : Int → Int := fun k => a.value + (k - (ta.lastId + 1 : Nat))
      let ρ' := RunJournal.renumber ρ₁ (ta.lastId + 1 : Nat) t₁.lastId
      have hρ_attempt : ρ' (ta.lastId + 1 : Nat) = a.value :=
        (renumber_of_le (Int.le_refl _)).trans (by simp only [ρ₁]; omega)
      have hρ_matrix : ρ' (ta.lastId + 1 + 1 : Nat) = (t₁.lastId + 1 : Nat) := renumber_add 0
      have hspec : ra.spec = none := by
        refine Option.eq_none_iff_forall_ne_some.mpr fun c hc => ?_
        obtain ⟨k, -, hk, -⟩ := hra.spec c hc
        rw [hm] at hk
        cases hk
      have hattempt_id : (ta.freshId : AttemptId).rename ρ' = a := congrArg RowId.mk hρ_attempt
      have hmatrix_id : ((ta.addAttempt (identity.attemptRow browser)).freshId : MatrixId).rename
          ρ' = t₁.freshId := congrArg RowId.mk hρ_matrix
      refine ⟨ρ', strictMono_renumber (fun i j hij => ?_) ?_, Int.le_of_eq hρ_matrix, ?_, ?_,
        fun hnone => ?_⟩
      · simp only [ρ₁]
        omega
      · simp only [ρ₁]
        omega
      · simp only [h.state, RunState.rename, hspec, Option.map_some, Option.map_none, hattempt_id,
          hmatrix_id]
      · have hshard₁ : t₁.shard identity = ⟨[], [], []⟩ := (hattempt.shard_eq ht).trans hshard
        have hmatrices₁ : t₁.shardMatrices identity = [] := congrArg ShardRows.matrices hshard₁
        have hrows₂ : ((ta.addAttempt (identity.attemptRow browser)).addMatrix
              (identity.matrixRow ta.freshId)).rows =
            ⟨[⟨(ta.addAttempt (identity.attemptRow browser)).freshId,
              identity.matrixRow ta.freshId⟩], [], []⟩ := by
          show ShardRows.mk (ta.rows.matrices ++ _) ta.rows.specs ta.rows.tests = _
          rw [hrows]
          rfl
        rw [Tables.shard_addMatrix_own ht₁ hown, hshard₁, hmatrices₁, hrows₂]
        show _ = ShardRows.mk [⟨RowId.rename ρ' _,
          { identity.matrixRow ta.freshId with attemptId := RowId.rename ρ' ta.freshId }⟩] [] []
        rw [hattempt_id, hmatrix_id]
        rfl
      · cases hnone

/-- A spec that begins for both gets a row in both tables, the next one. -/
theorem specBegun (h : Matches identity ρ ra ta r t)
    (hnext : ∀ k : Nat, ρ (ta.lastId + 1 + k : Nat) = (t.lastId + 1 + k : Nat))
    (ht : t.WellFormed) (hr : r.Mirrors identity t) (name : String) {ma m : MatrixId}
    (hma : ra.matrixId = some ma) (hm : r.matrixId = some m) :
    Matches identity ρ { ra with spec := some ⟨name, ta.freshId⟩ } (ta.addSpec name ma)
      { r with spec := some ⟨name, t.freshId⟩ } (t.addSpec name m) := by
  have hfresh : (ta.freshId : SpecId).rename ρ = t.freshId := congrArg RowId.mk (hnext 0)
  have hmatrix : ma.rename ρ = m := by
    have hmatrixId := h.matrixId
    rw [hma, hm] at hmatrixId
    exact (Option.some.inj hmatrixId).symm
  refine ⟨h.strictMono, Int.le_of_eq (hnext 0), ?_, ?_, fun hnone => ?_⟩
  · rw [h.state, ← hfresh]
    rfl
  · have hown := (hr.matrix_mem_shard_iff ht hm).mpr rfl
    have hspecs : t.shardSpecs identity = ta.specs.map (·.rename ρ) :=
      congrArg ShardRows.specs h.rows
    rw [Tables.shard_addSpec_own ht hown, h.rows, hspecs, ← hfresh, ← hmatrix]
    simp only [ShardRows.rename, Tables.rows, Tables.addSpec, List.map_append, List.map_singleton]
    rfl
  · rw [show ra.matrixId = none from hnone] at hma
    cases hma

/-- A spec that ends for both gets the same summary, and the same tests, the next ones. -/
theorem specEnded (h : Matches identity ρ ra ta r t)
    (hnext : ∀ k : Nat, ρ (ta.lastId + 1 + k : Nat) = (t.lastId + 1 + k : Nat))
    (ht : t.WellFormed) (hra : ra.Mirrors identity ta) (hr : r.Mirrors identity t)
    (results : SpecResults) {ca c : CurrentSpec} (hca : ra.spec = some ca) (hc : r.spec = some c) :
    Matches identity ρ
      ra ((ta.setSummary ca.id (.ofStats results.stats)).addTests ca.id results.tests)
      r ((t.setSummary c.id (.ofStats results.stats)).addTests c.id results.tests) := by
  have hspec : ca.id.rename ρ = c.id := by
    have hspec := h.spec
    rw [hca, hc] at hspec
    exact congrArg CurrentSpec.id (Option.some.inj hspec).symm
  refine ⟨h.strictMono, ?_, h.state, ?_, fun hnone => ?_⟩
  · show ρ (ta.lastId + results.tests.length : Nat) ≤ (t.lastId + results.tests.length : Nat)
    cases results.tests with
    | nil => exact h.lastId
    | cons test rest =>
      -- the last id that the tests take is renamed to the last that they take there
      have hlast := hnext rest.length
      rw [Nat.add_assoc, Nat.add_assoc, Nat.add_comm 1] at hlast
      exact Int.le_of_eq hlast
  · have hown := (hr.spec_mem_shard_iff ht hc).mpr rfl
    rw [← Tables.shardSpecs_ids_setSummary c.id (.ofStats results.stats)] at hown
    have hspecs : (t.shardSpecs identity).map (SpecRow.summarize c.id (.ofStats results.stats)) =
        (ta.specs.map (SpecRow.summarize ca.id (.ofStats results.stats))).map (·.rename ρ) := by
      have hold : t.shardSpecs identity = ta.specs.map (·.rename ρ) :=
        congrArg ShardRows.specs h.rows
      rw [hold, List.map_map, List.map_map, ← hspec]
      exact List.map_congr_left fun row _ =>
        (row.rename_summarize h.strictMono ca.id (.ofStats results.stats)).symm
    have htests : (t.setSummary c.id (.ofStats results.stats)).shardTests identity =
        ta.tests.map (·.rename ρ) :=
      (Tables.shardTests_congr (Tables.shardSpecs_ids_setSummary _ _) rfl).trans
        (congrArg ShardRows.tests h.rows)
    -- the new tests are named alike, since the next ids correspond
    have hnew : ta.tests.map (·.rename ρ) ++
          Tables.testRows c.id (t.lastId + 1) results.tests =
        (ta.tests ++ Tables.testRows ca.id (ta.lastId + 1) results.tests).map (·.rename ρ) := by
      rw [List.map_append, testRows_rename ca.id results.tests hnext, hspec]
    rw [Tables.shard_addTests_own hown, htests, Tables.shard_setSummary, h.rows, hspecs]
    exact congrArg (ShardRows.mk _ _) hnew
  · obtain ⟨m, -, hm, -⟩ := hra.spec ca hca
    rw [hnone] at hm
    cases hm

/-- **A recorder and its counterpart stay in step**, and whatever is recorded by the one is recorded
by the other. -/
theorem step (h : Matches identity ρ ra ta r t) (hta : ta.WellFormed) (ht : t.WellFormed)
    (hra : ra.Mirrors identity ta) (hr : r.Mirrors identity t)
    (heffecta : EventEffect identity ra ta e outcomea ra' ta')
    (heffect : EventEffect identity r t e outcome r' t') :
    outcomea = outcome ∧ ∃ ρ', Matches identity ρ' ra' ta' r' t' := by
  have hnext : ∀ k : Nat, RunJournal.renumber ρ ta.lastId t.lastId (ta.lastId + 1 + k : Nat) =
      (t.lastId + 1 + k : Nat) := fun k => renumber_add k
  -- what one of the two has without the other having it is no case at all
  cases heffecta with
  | run hattempta hmatrixa =>
    cases heffect with
    | run hattempt hmatrix =>
      refine ⟨rfl, ?_⟩
      cases hm : ra.matrixId with
      | none => exact h.runBegun hta ht hra hm hattempta hmatrixa hattempt hmatrix
      | some ka =>
        have hk : r.matrixId = some (ka.rename ρ) := by rw [h.matrixId, hm, Option.map_some]
        obtain ⟨haa, rfl, rfl⟩ := hra.served_again hta hm hattempta hmatrixa
        obtain ⟨ha, rfl, rfl⟩ := hr.served_again ht hk hattempt hmatrix
        rw [← haa, ← hm, ← ha, ← hk]
        exact ⟨ρ, h.run_again _⟩
  | specRefused hma =>
    cases heffect with
    | specRefused hm => exact ⟨rfl, ρ, h.forgetSpec⟩
    | specBegun hm =>
      rw [h.matrixId, hma] at hm
      cases hm
  | specBegun hma =>
    cases heffect with
    | specRefused hm =>
      rw [h.matrixId, hma] at hm
      cases hm
    | specBegun hm =>
      exact ⟨rfl, _, (h.renumber hta hra).specBegun hnext ht hr _ hma hm⟩
  | endRefused hca =>
    cases heffect with
    | endRefused hc => exact ⟨rfl, ρ, h⟩
    | specEnded hc =>
      rw [h.spec, hca] at hc
      cases hc
  | specEnded hca =>
    cases heffect with
    | endRefused hc =>
      rw [h.spec, hca] at hc
      cases hc
    | specEnded hc =>
      exact ⟨rfl, _, (h.renumber hta hra).specEnded hnext ht hra hr _ hca hc⟩

end Matches

end RunJournal
