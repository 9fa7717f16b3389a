import RunJournal.Proofs.Database.Executed
import RunJournal.Proofs.Database.Refused

/-!
# What requests do to a database

A gateway on an open link, with a server that keeps the schema and never fails. Each request that
refers to rows that are there is answered, and `Database.Serves` lists what it has then done to the
database: what `Tables.Served` lists for tables in memory, except that the identifier of a new row
is any that is free in its table. `Gateway.store_serves` is the main statement. It holds in spite of
the two statements that it takes to find a row, since with this server nothing comes between them.
-/

namespace RunJournal

/-- A server that executes every statement on the tables of the schema, and ends the link when it is
to end. -/
structure Server.KeepsSchema {σ : Type} (server : Server σ) (rules : ServerRules)
    (view : σ → Database) : Prop where
  executes : ∀ q s,
    (view s).Executes rules q (server.execute q s).1 (view (server.execute q s).2)
  hangsUp : ∀ s, (server.hangUp s).1 = .ok () ∧ view (server.hangUp s).2 = view s

theorem Server.KeepsSchema.executes_of_eq {σ : Type} {server : Server σ} {rules : ServerRules}
    {view : σ → Database} (h : server.KeepsSchema rules view) {q : Statement} {reply : Reply}
    {s s' : σ} (hreply : server.execute q s = (reply, s')) :
    (view s).Executes rules q reply (view s') := by
  have hexecutes := h.executes q s
  rwa [hreply] at hexecutes

/-- The rows that a request refers to are there. -/
def Request.Refers (has : {table : Table} → RowId table → Prop) : Request → Prop
  | .upsertAttempt _ => True
  | .upsertMatrix row => has row.attemptId
  | .insertSpec _ matrix => has matrix
  | .completeSpec spec _ => has spec
  | .insertTest row => has row.specId
  | .finishMatrix matrix => has matrix
  | .finishAttempt attempt _ => has attempt
  | .close => True

namespace Database

/-- What a request does to a database that serves it, and the answer. -/
inductive Serves (rules : ServerRules) (d : Database) :
    (q : Request) → q.Answer → Database → Prop where
  | attemptFound {row : NewAttempt} {r : AttemptRow} (hmem : r ∈ d.attempts)
      (hkey : r.values.key = row.key) : Serves rules d (.upsertAttempt row) r.id d
  | attemptMade {row : NewAttempt} (id : AttemptId)
      (hnew : ∀ r ∈ d.attempts, r.values.key ≠ row.key) (hfresh : ¬ d.Has id) :
      Serves rules d (.upsertAttempt row) id (d.addAttempt id row)
  | matrixFound {row : NewMatrix} {r : MatrixRow} (hmem : r ∈ d.matrices)
      (hkey : r.values.key = row.key) : Serves rules d (.upsertMatrix row) r.id d
  | matrixMade {row : NewMatrix} (id : MatrixId)
      (hnew : ∀ r ∈ d.matrices, r.values.key ≠ row.key) (hfresh : ¬ d.Has id) :
      Serves rules d (.upsertMatrix row) id (d.addMatrix id row)
  | specMade {name : String} {matrix : MatrixId} (id : SpecId) (hfresh : ¬ d.Has id) :
      Serves rules d (.insertSpec name matrix) id (d.addSpec id name matrix)
  | specCompleted {spec : SpecId} {summary : SpecSummary} :
      Serves rules d (.completeSpec spec summary) () (d.setSummary spec summary)
  | testMade {row : NewTest} (id : TestId) (hfresh : ¬ d.Has id) :
      Serves rules d (.insertTest row) id
        (d.addTest id { row with retryData := rules.json row.retryData })
  | matrixFinished {matrix : MatrixId} :
      Serves rules d (.finishMatrix matrix) () (d.markDone matrix)
  | attemptFinished {attempt : AttemptId} {endTime : Timestamp} :
      Serves rules d (.finishAttempt attempt endTime) () (d.setEndTime attempt endTime)
  | closed : Serves rules d .close () d

/-! ## Statements of one kind -/

variable {rules : ServerRules} {d d' : Database} {reply : Reply}

/-- An attempt is made under a new key, or the key is taken and nothing happens. -/
theorem Executes.insertAttempt_cases {row : NewAttempt}
    (h : d.Executes rules (.insertAttempt row) reply d') :
    (∃ id, (∀ r ∈ d.attempts, r.values.key ≠ row.key) ∧ ¬ d.Has id ∧
      reply = .ok [id.value] ∧ d' = d.addAttempt id row) ∨
    ∃ r ∈ d.attempts, r.values.key = row.key ∧ reply = .ok [] ∧ d' = d := by
  cases h with
  | attemptMade id hnew hfresh => exact .inl ⟨id, hnew, hfresh, rfl, rfl⟩
  | attemptTaken hmem hkey => exact .inr ⟨_, hmem, hkey, rfl, rfl⟩

/-- An attempt that is there is found. -/
theorem Executes.selectAttempt_cases {workflowId attempt : Int} {r : AttemptRow}
    (h : d.Executes rules (.selectAttempt workflowId attempt) reply d') (hmem : r ∈ d.attempts)
    (hkey : r.values.key = (workflowId, attempt)) :
    ∃ found ∈ d.attempts, ∃ others, found.values.key = (workflowId, attempt) ∧
      reply = .ok (found.id.value :: others) ∧ d' = d := by
  cases h with
  | attemptSelected ids hids =>
    cases ids with
    | nil => exact absurd ((mem_selected_iff hids).mpr ⟨r, hmem, hkey, rfl⟩) List.not_mem_nil
    | cons id others =>
      obtain ⟨found, hfound, hfound_key, rfl⟩ := (mem_selected_iff hids).mp List.mem_cons_self
      exact ⟨found, hfound, others, hfound_key, rfl, rfl⟩

/-- A matrix is made under a new key, or the key is taken, given that its attempt is there. -/
theorem Executes.insertMatrix_cases {row : NewMatrix}
    (h : d.Executes rules (.insertMatrix row) reply d') (hattempt : d.Has row.attemptId) :
    (∃ id, (∀ r ∈ d.matrices, r.values.key ≠ row.key) ∧ ¬ d.Has id ∧
      reply = .ok [id.value] ∧ d' = d.addMatrix id row) ∨
    ∃ r ∈ d.matrices, r.values.key = row.key ∧ reply = .ok [] ∧ d' = d := by
  cases h with
  | matrixMade id hnew hfresh _ => exact .inl ⟨id, hnew, hfresh, rfl, rfl⟩
  | matrixTaken hmem hkey => exact .inr ⟨_, hmem, hkey, rfl, rfl⟩
  | matrixRefused _ _ hnone => exact absurd hattempt hnone

/-- A shard that is there is found. -/
theorem Executes.selectMatrix_cases {matrixId : String} {attempt : AttemptId} {r : MatrixRow}
    (h : d.Executes rules (.selectMatrix matrixId attempt) reply d') (hmem : r ∈ d.matrices)
    (hkey : r.values.key = (matrixId, attempt)) :
    ∃ found ∈ d.matrices, ∃ others, found.values.key = (matrixId, attempt) ∧
      reply = .ok (found.id.value :: others) ∧ d' = d := by
  cases h with
  | matrixSelected ids hids =>
    cases ids with
    | nil => exact absurd ((mem_selected_iff hids).mpr ⟨r, hmem, hkey, rfl⟩) List.not_mem_nil
    | cons id others =>
      obtain ⟨found, hfound, hfound_key, rfl⟩ := (mem_selected_iff hids).mp List.mem_cons_self
      exact ⟨found, hfound, others, hfound_key, rfl, rfl⟩

theorem Executes.insertSpec_cases {name : String} {matrix : MatrixId}
    (h : d.Executes rules (.insertSpec name matrix) reply d') (hmatrix : d.Has matrix) :
    ∃ id : SpecId, ¬ d.Has id ∧ reply = .ok [id.value] ∧ d' = d.addSpec id name matrix := by
  cases h with
  | specMade id hfresh _ => exact ⟨id, hfresh, rfl, rfl⟩
  | specRefused _ hnone => exact absurd hmatrix hnone

theorem Executes.insertTest_cases {row : NewTest}
    (h : d.Executes rules (.insertTest row) reply d') (hspec : d.Has row.specId) :
    ∃ id : TestId, ¬ d.Has id ∧ reply = .ok [id.value] ∧
      d' = d.addTest id { row with retryData := rules.json row.retryData } := by
  cases h with
  | testMade id hfresh _ => exact ⟨id, hfresh, rfl, rfl⟩
  | testRefused _ hnone => exact absurd hspec hnone

/-- A summary is written to the rows with the id, of which there may be none. -/
theorem Executes.completeSpec_eq {spec : SpecId} {summary : SpecSummary}
    (h : d.Executes rules (.completeSpec spec summary) reply d') :
    reply = .ok [] ∧ d' = d.setSummary spec summary := by
  cases h
  exact ⟨rfl, rfl⟩

theorem Executes.finishMatrix_eq {matrix : MatrixId}
    (h : d.Executes rules (.finishMatrix matrix) reply d') :
    reply = .ok [] ∧ d' = d.markDone matrix := by
  cases h
  exact ⟨rfl, rfl⟩

theorem Executes.finishAttempt_eq {attempt : AttemptId} {endTime : Timestamp}
    (h : d.Executes rules (.finishAttempt attempt endTime) reply d') :
    reply = .ok [] ∧ d' = d.setEndTime attempt endTime := by
  cases h
  exact ⟨rfl, rfl⟩

end Database

/-! ## Conversations that succeed -/

namespace Gateway

variable {σ : Type} {server : Server σ} {s s₁ s₂ : σ} {table : Table} {id : Int} {others : List Int}

/-- An upsert that made its row asks no more. -/
theorem run_upsert_made {insert select : Statement}
    (hinsert : server.execute insert s = (.ok (id :: others), s₁)) :
    (@upsert table insert select).run server s = (.ok ⟨id⟩, s₁) := by
  simp only [upsert, Dialogue.run, hinsert]

/-- An upsert that ran into a row looks that row up. -/
theorem run_upsert_found {insert select : Statement}
    (hinsert : server.execute insert s = (.ok [], s₁))
    (hselect : server.execute select s₁ = (.ok (id :: others), s₂)) :
    (@upsert table insert select).run server s = (.ok ⟨id⟩, s₂) := by
  simp only [upsert, Dialogue.run, hinsert, hselect]

theorem run_insert {q : Statement} (h : server.execute q s = (.ok (id :: others), s₁)) :
    (@insert table q).run server s = (.ok ⟨id⟩, s₁) := by
  simp only [insert, Dialogue.run, h]

theorem run_update {q : Statement} {ids : List Int} (h : server.execute q s = (.ok ids, s₁)) :
    (update q).run server s = (.ok (), s₁) := by
  simp only [update, Dialogue.run, h]

theorem run_close (h : server.hangUp s = (.ok (), s₁)) : close.run server s = (.ok (), s₁) := by
  simp only [close, Dialogue.run, h]

/-- A conversation about a request is held when the link is open. -/
theorem store_live {q : Request} (hfits : q.FitsColumns) {answer : Except StoreError q.Answer}
    (h : (converse q).run server s = (answer, s₁)) :
    store server q (.live, s) = (answer, (linkAfter q .live, s₁)) := by
  have hanswer : Gateway.answer q .live = converse q := by
    simp only [Gateway.answer, precheck_eq_none_iff.mpr hfits]
  rw [store, hanswer, h]

/-- **A request that refers to rows that are there is served.** -/
theorem store_serves {rules : ServerRules} {view : σ → Database}
    (hserver : server.KeepsSchema rules view) {q : Request} (hfits : q.FitsColumns)
    (hrefers : q.Refers fun id => (view s).Has id) :
    ∃ answer s', store server q (.live, s) = (.ok answer, (linkAfter q .live, s')) ∧
      (view s).Serves rules q answer (view s') := by
  -- the link is live and the columns fit, so it is enough to follow the dialogue
  suffices hrun : ∃ answer s', (converse q).run server s = (.ok answer, s') ∧
      (view s).Serves rules q answer (view s') by
    obtain ⟨answer, s', hrun, hserves⟩ := hrun
    exact ⟨answer, s', store_live hfits hrun, hserves⟩
  cases q with
  | upsertAttempt row =>
    rcases hinsert : server.execute (.insertAttempt row) s with ⟨reply, s₁⟩
    obtain ⟨id, hnew, hfresh, rfl, hview⟩ | ⟨r, hmem, hkey, rfl, hview⟩ :=
      (hserver.executes_of_eq hinsert).insertAttempt_cases
    · exact ⟨id, s₁, run_upsert_made hinsert, hview ▸ .attemptMade id hnew hfresh⟩
    -- the key is taken, so the row that has it is looked up and found
    · rcases hselect : server.execute (.selectAttempt row.workflowId row.attempt) s₁
        with ⟨reply, s₂⟩
      have hexecutes := hserver.executes_of_eq hselect
      rw [hview] at hexecutes
      obtain ⟨found, hfound, others, hfound_key, rfl, hview⟩ :=
        hexecutes.selectAttempt_cases hmem hkey
      refine ⟨found.id, s₂, run_upsert_found hinsert hselect, ?_⟩
      rw [hview]
      exact .attemptFound hfound hfound_key
  | upsertMatrix row =>
    rcases hinsert : server.execute (.insertMatrix row) s with ⟨reply, s₁⟩
    obtain ⟨id, hnew, hfresh, rfl, hview⟩ | ⟨r, hmem, hkey, rfl, hview⟩ :=
      (hserver.executes_of_eq hinsert).insertMatrix_cases hrefers
    · exact ⟨id, s₁, run_upsert_made hinsert, hview ▸ .matrixMade id hnew hfresh⟩
    · rcases hselect : server.execute (.selectMatrix row.matrixId row.attemptId) s₁
        with ⟨reply, s₂⟩
      have hexecutes := hserver.executes_of_eq hselect
      rw [hview] at hexecutes
      obtain ⟨found, hfound, others, hfound_key, rfl, hview⟩ :=
        hexecutes.selectMatrix_cases hmem hkey
      refine ⟨found.id, s₂, run_upsert_found hinsert hselect, ?_⟩
      rw [hview]
      exact .matrixFound hfound hfound_key
  | insertSpec name matrix =>
    rcases hinsert : server.execute (.insertSpec name matrix) s with ⟨reply, s₁⟩
    obtain ⟨id, hfresh, rfl, hview⟩ := (hserver.executes_of_eq hinsert).insertSpec_cases hrefers
    exact ⟨id, s₁, run_insert hinsert, hview ▸ .specMade id hfresh⟩
  | completeSpec spec summary =>
    rcases hupdate : server.execute (.completeSpec spec summary) s with ⟨reply, s₁⟩
    obtain ⟨rfl, hview⟩ := (hserver.executes_of_eq hupdate).completeSpec_eq
    exact ⟨(), s₁, run_update hupdate, hview ▸ .specCompleted⟩
  | insertTest row =>
    rcases hinsert : server.execute (.insertTest row) s with ⟨reply, s₁⟩
    obtain ⟨id, hfresh, rfl, hview⟩ := (hserver.executes_of_eq hinsert).insertTest_cases hrefers
    exact ⟨id, s₁, run_insert hinsert, hview ▸ .testMade id hfresh⟩
  | finishMatrix matrix =>
    rcases hupdate : server.execute (.finishMatrix matrix) s with ⟨reply, s₁⟩
    obtain ⟨rfl, hview⟩ := (hserver.executes_of_eq hupdate).finishMatrix_eq
    exact ⟨(), s₁, run_update hupdate, hview ▸ .matrixFinished⟩
  | finishAttempt attempt endTime =>
    rcases hupdate : server.execute (.finishAttempt attempt endTime) s with ⟨reply, s₁⟩
    obtain ⟨rfl, hview⟩ := (hserver.executes_of_eq hupdate).finishAttempt_eq
    exact ⟨(), s₁, run_update hupdate, hview ▸ .attemptFinished⟩
  | close =>
    obtain ⟨hok, hview⟩ := hserver.hangsUp s
    exact ⟨(), (server.hangUp s).2, run_close (Prod.ext hok rfl), hview ▸ .closed⟩

end Gateway

end RunJournal
