import Mathlib.Data.Multiset.Filter
import Mathlib.Data.Multiset.UnionInter
import RunJournal.Database.Gateway
import RunJournal.Proofs.Store.Served

/-!
# What statements do to a database

A database as the schema has it: four tables of rows without an order. `Database.Executes` lists
what a statement does that is executed as a whole, one constructor for each way, with what the
database must have held for it. It is a relation because the server is free in what identifier it
gives to a new row, as long as no row of the table has it.

Two things are true whatever the statement: unique keys stay unique (`Executes.keyed`), and no row is
taken away or gets another key (`Executes.grows`).
-/

namespace RunJournal

/-- What servers with the same schema may differ in. -/
structure ServerRules where
  /-- How a text in JSON reads once a column has taken it as JSON. -/
  json : String → String
  /-- Whether a row is refused that refers to no row of the table above it. -/
  refers : Prop

/-- The rules of a server that keeps JSON as it is written and refuses what refers to nothing. -/
def ServerRules.plain : ServerRules := ⟨id, True⟩

/-- The tables of a database. -/
structure Database where
  attempts : Multiset AttemptRow
  matrices : Multiset MatrixRow
  specs : Multiset SpecRow
  tests : Multiset TestRow

namespace Database

/-- A database without rows. -/
def empty : Database := ⟨0, 0, 0, 0⟩

/-- The identifiers of a table. -/
def ids (d : Database) : Table → Multiset Int
  | .attempt => d.attempts.map (·.id.value)
  | .matrix => d.matrices.map (·.id.value)
  | .specs => d.specs.map (·.id.value)
  | .tests => d.tests.map (·.id.value)

/-- A row of the table of `id` has this identifier. -/
def Has {table : Table} (d : Database) (id : RowId table) : Prop := id.value ∈ d.ids table

/-- The database with one more attempt. -/
def addAttempt (id : AttemptId) (row : NewAttempt) (d : Database) : Database :=
  { d with attempts := ⟨id, row, none⟩ ::ₘ d.attempts }

/-- The database with one more shard. -/
def addMatrix (id : MatrixId) (row : NewMatrix) (d : Database) : Database :=
  { d with matrices := ⟨id, row⟩ ::ₘ d.matrices }

/-- The database with one more spec. -/
def addSpec (id : SpecId) (name : String) (matrix : MatrixId) (d : Database) : Database :=
  { d with specs := ⟨id, name, matrix, none⟩ ::ₘ d.specs }

/-- The database with one more test. -/
def addTest (id : TestId) (row : NewTest) (d : Database) : Database :=
  { d with tests := ⟨id, row⟩ ::ₘ d.tests }

/-- The database with the summary of a spec, if it has the spec. -/
def setSummary (spec : SpecId) (summary : SpecSummary) (d : Database) : Database :=
  { d with specs := d.specs.map fun r =>
      if r.id = spec then { r with summary := some summary } else r }

/-- The database with a shard marked as done, if it has the shard. -/
def markDone (matrix : MatrixId) (d : Database) : Database :=
  { d with matrices := d.matrices.map fun r =>
      if r.id = matrix then { r with values := { r.values with status := .done } } else r }

/-- The database with the end of an attempt, if it has the attempt. -/
def setEndTime (attempt : AttemptId) (endTime : Timestamp) (d : Database) : Database :=
  { d with attempts := d.attempts.map fun r =>
      if r.id = attempt then { r with endTime := some endTime } else r }

/-- What a statement does to a database that executes it, and the reply. -/
inductive Executes (rules : ServerRules) (d : Database) : Statement → Reply → Database → Prop where
  | attemptMade {row : NewAttempt} (id : AttemptId)
      (hnew : ∀ r ∈ d.attempts, r.values.key ≠ row.key) (hfresh : ¬ d.Has id) :
      Executes rules d (.insertAttempt row) (.ok [id.value]) (d.addAttempt id row)
  | attemptTaken {row : NewAttempt} {r : AttemptRow} (hmem : r ∈ d.attempts)
      (hkey : r.values.key = row.key) : Executes rules d (.insertAttempt row) (.ok []) d
  | attemptSelected {workflowId attempt : Int} (ids : List Int)
      (hids : (d.attempts.filter (·.values.key = (workflowId, attempt))).map (·.id.value) = ids) :
      Executes rules d (.selectAttempt workflowId attempt) (.ok ids) d
  | matrixMade {row : NewMatrix} (id : MatrixId) (hnew : ∀ r ∈ d.matrices, r.values.key ≠ row.key)
      (hfresh : ¬ d.Has id) (hattempt : rules.refers → d.Has row.attemptId) :
      Executes rules d (.insertMatrix row) (.ok [id.value]) (d.addMatrix id row)
  | matrixTaken {row : NewMatrix} {r : MatrixRow} (hmem : r ∈ d.matrices)
      (hkey : r.values.key = row.key) : Executes rules d (.insertMatrix row) (.ok []) d
  | matrixRefused {row : NewMatrix} {message : String} (hrefers : rules.refers)
      (hnew : ∀ r ∈ d.matrices, r.values.key ≠ row.key)
      (hnone : ¬ d.Has row.attemptId) :
      Executes rules d (.insertMatrix row) (.error (.refused message)) d
  | matrixSelected {matrixId : String} {attempt : AttemptId} (ids : List Int)
      (hids : (d.matrices.filter (·.values.key = (matrixId, attempt))).map (·.id.value) = ids) :
      Executes rules d (.selectMatrix matrixId attempt) (.ok ids) d
  | specMade {name : String} {matrix : MatrixId} (id : SpecId) (hfresh : ¬ d.Has id)
      (hmatrix : rules.refers → d.Has matrix) :
      Executes rules d (.insertSpec name matrix) (.ok [id.value]) (d.addSpec id name matrix)
  | specRefused {name : String} {matrix : MatrixId} {message : String} (hrefers : rules.refers)
      (hnone : ¬ d.Has matrix) :
      Executes rules d (.insertSpec name matrix) (.error (.refused message)) d
  | specCompleted {spec : SpecId} {summary : SpecSummary} :
      Executes rules d (.completeSpec spec summary) (.ok []) (d.setSummary spec summary)
  | testMade {row : NewTest} (id : TestId) (hfresh : ¬ d.Has id)
      (hspec : rules.refers → d.Has row.specId) :
      Executes rules d (.insertTest row) (.ok [id.value])
        (d.addTest id { row with retryData := rules.json row.retryData })
  | testRefused {row : NewTest} {message : String} (hrefers : rules.refers)
      (hnone : ¬ d.Has row.specId) :
      Executes rules d (.insertTest row) (.error (.refused message)) d
  | matrixFinished {matrix : MatrixId} :
      Executes rules d (.finishMatrix matrix) (.ok []) (d.markDone matrix)
  | attemptFinished {attempt : AttemptId} {endTime : Timestamp} :
      Executes rules d (.finishAttempt attempt endTime) (.ok []) (d.setEndTime attempt endTime)
  /-- What defines a part of the schema finds it there. -/
  | defined {text : String} : Executes rules d (.define text) (.ok []) d

/-- No two attempts and no two shards have the same key. -/
structure Keyed (d : Database) : Prop where
  attempts : (d.attempts.map (·.values.key)).Nodup
  matrices : (d.matrices.map (·.values.key)).Nodup

/-- Attempts and shards of a database are found in a later one. -/
structure Grows (d d' : Database) : Prop where
  attempts : ∀ r ∈ d.attempts, ∃ r' ∈ d'.attempts, r'.lasting = r.lasting
  matrices : ∀ r ∈ d.matrices, ∃ r' ∈ d'.matrices, r'.lasting = r.lasting

variable {rules : ServerRules} {d d' d'' : Database} {q : Statement} {reply : Reply}

/-! ## Keys -/

theorem keyed_empty : empty.Keyed := ⟨Multiset.nodup_zero, Multiset.nodup_zero⟩

/-- A key tells an attempt from the others. -/
theorem Keyed.attempt_eq (h : d.Keyed) {a b : AttemptRow} (ha : a ∈ d.attempts)
    (hb : b ∈ d.attempts) (hkey : a.values.key = b.values.key) : a = b :=
  Multiset.inj_on_of_nodup_map h.attempts a ha b hb hkey

/-- A key tells a shard from the others. -/
theorem Keyed.matrix_eq (h : d.Keyed) {a b : MatrixRow} (ha : a ∈ d.matrices)
    (hb : b ∈ d.matrices) (hkey : a.values.key = b.values.key) : a = b :=
  Multiset.inj_on_of_nodup_map h.matrices a ha b hb hkey

theorem attempt_keys_setEndTime (attempt : AttemptId) (endTime : Timestamp) (d : Database) :
    (d.setEndTime attempt endTime).attempts.map (·.values.key) =
      d.attempts.map (·.values.key) := by
  rw [setEndTime, Multiset.map_map]
  refine Multiset.map_congr rfl fun r _ => ?_
  simp only [Function.comp]
  split <;> rfl

theorem matrix_keys_markDone (matrix : MatrixId) (d : Database) :
    (d.markDone matrix).matrices.map (·.values.key) = d.matrices.map (·.values.key) := by
  rw [markDone, Multiset.map_map]
  refine Multiset.map_congr rfl fun r _ => ?_
  simp only [Function.comp]
  split <;> rfl

/-- A key stays with one row when a row is made whose key was not there. -/
theorem nodup_keys_cons {α κ : Type} {key : α → κ} {rows : Multiset α} {row : α}
    (h : (rows.map key).Nodup) (hnew : ∀ r ∈ rows, key r ≠ key row) :
    ((row ::ₘ rows).map key).Nodup := by
  rw [Multiset.map_cons, Multiset.nodup_cons]
  refine ⟨fun hmem => ?_, h⟩
  obtain ⟨r, hr, hkey⟩ := Multiset.mem_map.mp hmem
  exact hnew r hr hkey

/-- **Unique keys stay unique.** -/
theorem Executes.keyed (h : d.Executes rules q reply d') (hd : d.Keyed) : d'.Keyed := by
  cases h with
  | attemptMade id hnew hfresh => exact ⟨nodup_keys_cons hd.attempts hnew, hd.matrices⟩
  | matrixMade id hnew hfresh hattempt => exact ⟨hd.attempts, nodup_keys_cons hd.matrices hnew⟩
  | matrixFinished => exact ⟨hd.attempts, (matrix_keys_markDone _ d).symm ▸ hd.matrices⟩
  | attemptFinished => exact ⟨(attempt_keys_setEndTime _ _ d).symm ▸ hd.attempts, hd.matrices⟩
  | _ => exact ⟨hd.attempts, hd.matrices⟩

/-- A selection gives the rows that it asks for and no others. -/
theorem mem_selected_iff {α : Type} {rows : Multiset α} {p : α → Prop} [DecidablePred p]
    {f : α → Int} {ids : List Int} (hids : (rows.filter p).map f = ids) {id : Int} :
    id ∈ ids ↔ ∃ r ∈ rows, p r ∧ f r = id := by
  rw [← Multiset.mem_coe, ← hids, Multiset.mem_map]
  simp only [Multiset.mem_filter, and_assoc]

/-! ## Growing -/

theorem Grows.refl (d : Database) : d.Grows d :=
  ⟨fun r hr => ⟨r, hr, rfl⟩, fun r hr => ⟨r, hr, rfl⟩⟩

theorem Grows.trans (h₁ : d.Grows d') (h₂ : d'.Grows d'') : d.Grows d'' := by
  refine ⟨fun r hr => ?_, fun r hr => ?_⟩
  · obtain ⟨r', hr', hlasting⟩ := h₁.attempts r hr
    obtain ⟨r'', hr'', hlasting'⟩ := h₂.attempts r' hr'
    exact ⟨r'', hr'', hlasting'.trans hlasting⟩
  · obtain ⟨r', hr', hlasting⟩ := h₁.matrices r hr
    obtain ⟨r'', hr'', hlasting'⟩ := h₂.matrices r' hr'
    exact ⟨r'', hr'', hlasting'.trans hlasting⟩

/-- **No row is taken away.** What it holds for good it keeps. -/
theorem Executes.grows (h : d.Executes rules q reply d') : d.Grows d' := by
  cases h with
  | attemptMade id hnew hfresh =>
    exact ⟨fun r hr => ⟨r, Multiset.mem_cons_of_mem hr, rfl⟩, (Grows.refl d).matrices⟩
  | matrixMade id hnew hfresh hattempt =>
    exact ⟨(Grows.refl d).attempts, fun r hr => ⟨r, Multiset.mem_cons_of_mem hr, rfl⟩⟩
  | matrixFinished =>
    refine ⟨(Grows.refl d).attempts, fun r hr => ⟨_, Multiset.mem_map_of_mem _ hr, ?_⟩⟩
    split <;> rfl
  | attemptFinished =>
    refine ⟨fun r hr => ⟨_, Multiset.mem_map_of_mem _ hr, ?_⟩, (Grows.refl d).matrices⟩
    split <;> rfl
  | _ => exact ⟨(Grows.refl d).attempts, (Grows.refl d).matrices⟩

end Database

end RunJournal
