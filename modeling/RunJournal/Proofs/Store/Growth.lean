import RunJournal.Proofs.Store.WellFormed

/-!
# Tables only grow

No request takes a row away, and what a row holds for good stays what it was when the row was made.
`Tables.Extends` relates tables to later ones: each table begins with the rows that it had. It is
kept by every request that is served (`Served.extends`), and so by any number of them
(`extends_serveAll`).

An identifier that was once given is thus good for ever: what is looked up under it (`attempt?`,
`matrix?`, `spec?`) is found in all later tables with the same values.
-/

namespace RunJournal

namespace Tables

/-- The attempt with an identifier. -/
def attempt? (id : AttemptId) (t : Tables) : Option AttemptRow := t.attempts.find? (·.id == id)

/-- The shard with an identifier. -/
def matrix? (id : MatrixId) (t : Tables) : Option MatrixRow := t.matrices.find? (·.id == id)

/-- The spec with an identifier. -/
def spec? (id : SpecId) (t : Tables) : Option SpecRow := t.specs.find? (·.id == id)

/-- Later tables begin with all that the rows of earlier tables hold for good. -/
structure Extends (t t' : Tables) : Prop where
  attempts : t.attempts.map AttemptRow.lasting <+: t'.attempts.map AttemptRow.lasting
  matrices : t.matrices.map MatrixRow.lasting <+: t'.matrices.map MatrixRow.lasting
  specs : t.specs.map SpecRow.lasting <+: t'.specs.map SpecRow.lasting
  tests : t.tests <+: t'.tests
  lastId : t.lastId ≤ t'.lastId

variable {t t' t'' : Tables}

/-! ## Rows by identifier -/

/-- A row that is told by its identifier is the one that is found under it. -/
theorem find?_eq_some_iff_of_id {α : Type} {table : Table} {rows : List α} {rowId : α → RowId table}
    (hunique : ∀ a ∈ rows, ∀ b ∈ rows, rowId a = rowId b → a = b) {id : RowId table} {r : α} :
    rows.find? (fun x => rowId x == id) = some r ↔ r ∈ rows ∧ rowId r = id := by
  constructor
  · intro hfind
    have hid := List.find?_some hfind
    exact ⟨List.mem_of_find?_eq_some hfind, eq_of_beq hid⟩
  · rintro ⟨hr, rfl⟩
    cases hfind : rows.find? fun x => rowId x == rowId r with
    | none => exact absurd (beq_self_eq_true (rowId r)) (List.find?_eq_none.mp hfind r hr)
    | some found =>
      have hid := List.find?_some hfind
      rw [hunique found (List.mem_of_find?_eq_some hfind) r hr (eq_of_beq hid)]

/-- The attempt that is found by an id is the row with that id. -/
theorem WellFormed.attempt?_eq_some_iff (h : t.WellFormed) {id : AttemptId} {r : AttemptRow} :
    t.attempt? id = some r ↔ r ∈ t.attempts ∧ r.id = id :=
  find?_eq_some_iff_of_id fun _ ha _ hb => h.attempt_eq_of_id ha hb

theorem WellFormed.matrix?_eq_some_iff (h : t.WellFormed) {id : MatrixId} {r : MatrixRow} :
    t.matrix? id = some r ↔ r ∈ t.matrices ∧ r.id = id :=
  find?_eq_some_iff_of_id fun _ ha _ hb => h.matrix_eq_of_id ha hb

theorem WellFormed.spec?_eq_some_iff (h : t.WellFormed) {id : SpecId} {r : SpecRow} :
    t.spec? id = some r ↔ r ∈ t.specs ∧ r.id = id :=
  find?_eq_some_iff_of_id fun _ ha _ hb => h.spec_eq_of_id ha hb

theorem WellFormed.mem_ids_of_attempt? (h : t.WellFormed) {id : AttemptId} {r : AttemptRow}
    (hr : t.attempt? id = some r) : id.value ∈ t.ids := by
  obtain ⟨hmem, rfl⟩ := h.attempt?_eq_some_iff.mp hr
  exact attempts_subset_ids (List.mem_map_of_mem hmem)

theorem WellFormed.mem_ids_of_matrix? (h : t.WellFormed) {id : MatrixId} {r : MatrixRow}
    (hr : t.matrix? id = some r) : id.value ∈ t.ids := by
  obtain ⟨hmem, rfl⟩ := h.matrix?_eq_some_iff.mp hr
  exact matrices_subset_ids (List.mem_map_of_mem hmem)

theorem WellFormed.mem_ids_of_spec? (h : t.WellFormed) {id : SpecId} {r : SpecRow}
    (hr : t.spec? id = some r) : id.value ∈ t.ids := by
  obtain ⟨hmem, rfl⟩ := h.spec?_eq_some_iff.mp hr
  exact specs_subset_ids (List.mem_map_of_mem hmem)

/-! ## Growing -/

theorem Extends.refl (t : Tables) : t.Extends t :=
  ⟨List.prefix_rfl, List.prefix_rfl, List.prefix_rfl, List.prefix_rfl, Nat.le_refl _⟩

theorem Extends.trans (h₁ : t.Extends t') (h₂ : t'.Extends t'') : t.Extends t'' :=
  ⟨h₁.attempts.trans h₂.attempts, h₁.matrices.trans h₂.matrices, h₁.specs.trans h₂.specs,
    h₁.tests.trans h₂.tests, Nat.le_trans h₁.lastId h₂.lastId⟩

/-- Tables with the same rows count as grown. -/
theorem SameRows.extends (h : t.SameRows t') : t.Extends t' :=
  ⟨h.attempts ▸ List.prefix_rfl, h.matrices ▸ List.prefix_rfl, h.specs ▸ List.prefix_rfl,
    h.tests ▸ List.prefix_rfl, Nat.le_of_eq h.lastId.symm⟩

/-- Tables grow by a new row. -/
theorem extends_addAttempt (row : NewAttempt) (t : Tables) : t.Extends (t.addAttempt row) :=
  { Extends.refl t with
    attempts := (List.prefix_append _ _).map _
    lastId := Nat.le_succ _ }

theorem extends_addMatrix (row : NewMatrix) (t : Tables) : t.Extends (t.addMatrix row) :=
  { Extends.refl t with
    matrices := (List.prefix_append _ _).map _
    lastId := Nat.le_succ _ }

theorem extends_addSpec (name : String) (matrix : MatrixId) (t : Tables) :
    t.Extends (t.addSpec name matrix) :=
  { Extends.refl t with
    specs := (List.prefix_append _ _).map _
    lastId := Nat.le_succ _ }

theorem extends_addTest (row : NewTest) (t : Tables) : t.Extends (t.addTest row) :=
  { Extends.refl t with
    tests := List.prefix_append _ _
    lastId := Nat.le_succ _ }

/-- **A request that is served takes nothing away.** -/
theorem Served.extends {q : Request} {answer : q.Answer} (hserved : Served t q answer t') :
    t.Extends t' := by
  cases hserved with
  | attemptFound hmem hkey => exact .refl t
  | attemptMade hnew => exact extends_addAttempt _ t
  | matrixFound hmem hkey => exact .refl t
  | matrixMade hnew hattempt => exact extends_addMatrix _ t
  | specMade hmatrix => exact extends_addSpec _ _ t
  | specCompleted hspec => exact (sameRows_setSummary _ _ t).extends
  | testMade hspec => exact extends_addTest _ t
  | matrixFinished hmatrix => exact (sameRows_markDone _ t).extends
  | attemptFinished hattempt => exact (sameRows_setEndTime _ _ t).extends
  | closed => exact (sameRows_shut t).extends

/-- Whatever is asked for, the tables grow. -/
theorem extends_serveAll (requests : List Request) (t : Tables) : t.Extends (t.serveAll requests) :=
  serveAll_induction (motive := t.Extends) requests (.refl t)
    fun hextends hserved => hextends.trans hserved.extends

/-! ## Rows that stay -/

namespace Extends

/-- Every attempt is still there, with the values that last. -/
theorem exists_attempt (h : t.Extends t') {r : AttemptRow} (hr : r ∈ t.attempts) :
    ∃ r' ∈ t'.attempts, r'.lasting = r.lasting :=
  List.mem_map.mp (h.attempts.mem (List.mem_map_of_mem hr))

theorem exists_matrix (h : t.Extends t') {r : MatrixRow} (hr : r ∈ t.matrices) :
    ∃ r' ∈ t'.matrices, r'.lasting = r.lasting :=
  List.mem_map.mp (h.matrices.mem (List.mem_map_of_mem hr))

theorem exists_spec (h : t.Extends t') {r : SpecRow} (hr : r ∈ t.specs) :
    ∃ r' ∈ t'.specs, r'.lasting = r.lasting :=
  List.mem_map.mp (h.specs.mem (List.mem_map_of_mem hr))

/-- An attempt that was found under an identifier is found there later. -/
theorem attempt? (h : t.Extends t') (ht' : t'.WellFormed) {id : AttemptId} {r : AttemptRow}
    (hr : t.attempt? id = some r) :
    ∃ r', t'.attempt? id = some r' ∧ r'.values.key = r.values.key := by
  obtain ⟨r', hr', hlasting⟩ := h.exists_attempt (List.mem_of_find?_eq_some hr)
  have hid : r.id = id := eq_of_beq (List.find?_some (p := fun x : AttemptRow => x.id == id) hr)
  have hid' : r'.id = r.id := congrArg Prod.fst hlasting
  have hkey : r'.values.key = r.values.key := congrArg (fun p => p.2.key) hlasting
  exact ⟨r', ht'.attempt?_eq_some_iff.mpr ⟨hr', hid'.trans hid⟩, hkey⟩

/-- A shard that was found under an identifier is found there later. -/
theorem matrix? (h : t.Extends t') (ht' : t'.WellFormed) {id : MatrixId} {r : MatrixRow}
    (hr : t.matrix? id = some r) :
    ∃ r', t'.matrix? id = some r' ∧ r'.values.key = r.values.key := by
  obtain ⟨r', hr', hlasting⟩ := h.exists_matrix (List.mem_of_find?_eq_some hr)
  have hid : r.id = id := eq_of_beq (List.find?_some (p := fun x : MatrixRow => x.id == id) hr)
  have hid' : r'.id = r.id := congrArg Prod.fst hlasting
  have hkey : r'.values.key = r.values.key := congrArg (fun p => p.2.key) hlasting
  exact ⟨r', ht'.matrix?_eq_some_iff.mpr ⟨hr', hid'.trans hid⟩, hkey⟩

/-- A spec that was found under an identifier is found there later. -/
theorem spec? (h : t.Extends t') (ht' : t'.WellFormed) {id : SpecId} {r : SpecRow}
    (hr : t.spec? id = some r) :
    ∃ r', t'.spec? id = some r' ∧ r'.name = r.name ∧ r'.matrixId = r.matrixId := by
  obtain ⟨r', hr', hlasting⟩ := h.exists_spec (List.mem_of_find?_eq_some hr)
  have hid : r.id = id := eq_of_beq (List.find?_some (p := fun x : SpecRow => x.id == id) hr)
  have hid' : r'.id = r.id := congrArg Prod.fst hlasting
  have hvalues : (r'.name, r'.matrixId) = (r.name, r.matrixId) := congrArg Prod.snd hlasting
  exact ⟨r', ht'.spec?_eq_some_iff.mpr ⟨hr', hid'.trans hid⟩, congrArg Prod.fst hvalues,
    congrArg Prod.snd hvalues⟩

end Extends

/-! ## Rows that were asked for -/

/-- The answer to an upsert is an attempt with the key that was asked for. -/
theorem Served.attempt? {row : NewAttempt} {id : AttemptId}
    (hserved : Served t (.upsertAttempt row) id t') (ht : t.WellFormed) :
    ∃ r, t'.attempt? id = some r ∧ r.values.key = row.key := by
  have ht' := hserved.wellFormed ht
  cases hserved with
  | attemptFound hmem hkey => exact ⟨_, ht.attempt?_eq_some_iff.mpr ⟨hmem, rfl⟩, hkey⟩
  | attemptMade hnew =>
    have hmem : (⟨t.freshId, row, none⟩ : AttemptRow) ∈ (t.addAttempt row).attempts :=
      List.mem_append_right _ (List.mem_singleton.mpr rfl)
    exact ⟨_, ht'.attempt?_eq_some_iff.mpr ⟨hmem, rfl⟩, rfl⟩

/-- The answer to an upsert is a shard with the key that was asked for. -/
theorem Served.matrix? {row : NewMatrix} {id : MatrixId}
    (hserved : Served t (.upsertMatrix row) id t') (ht : t.WellFormed) :
    ∃ r, t'.matrix? id = some r ∧ r.values.key = row.key := by
  have ht' := hserved.wellFormed ht
  cases hserved with
  | matrixFound hmem hkey => exact ⟨_, ht.matrix?_eq_some_iff.mpr ⟨hmem, rfl⟩, hkey⟩
  | matrixMade hnew hattempt =>
    have hmem : (⟨t.freshId, row⟩ : MatrixRow) ∈ (t.addMatrix row).matrices :=
      List.mem_append_right _ (List.mem_singleton.mpr rfl)
    exact ⟨_, ht'.matrix?_eq_some_iff.mpr ⟨hmem, rfl⟩, rfl⟩

/-- The answer to an insertion is a spec as it was asked for. -/
theorem Served.spec? {name : String} {matrix : MatrixId} {id : SpecId}
    (hserved : Served t (.insertSpec name matrix) id t') (ht : t.WellFormed) :
    ∃ r, t'.spec? id = some r ∧ r.name = name ∧ r.matrixId = matrix := by
  have ht' := hserved.wellFormed ht
  cases hserved with
  | specMade hmatrix =>
    have hmem : (⟨t.freshId, name, matrix, none⟩ : SpecRow) ∈ (t.addSpec name matrix).specs :=
      List.mem_append_right _ (List.mem_singleton.mpr rfl)
    exact ⟨_, ht'.spec?_eq_some_iff.mpr ⟨hmem, rfl⟩, rfl, rfl⟩

/-- A spec gets an identifier that was not given before. -/
theorem Served.lt_spec {name : String} {matrix : MatrixId} {id : SpecId}
    (hserved : Served t (.insertSpec name matrix) id t') : t.lastId < id.value := by
  cases hserved with
  | specMade hmatrix => exact Int.lt_succ _

/-- A test gets an identifier that was not given before, and a row as it was asked for. -/
theorem Served.test {row : NewTest} {id : TestId} (hserved : Served t (.insertTest row) id t') :
    t.lastId < id.value ∧ id.value ≤ t'.lastId ∧ ⟨id, row⟩ ∈ t'.tests := by
  cases hserved with
  | testMade hspec =>
    exact ⟨Int.lt_succ _, Int.le_refl _, List.mem_append_right _ (List.mem_singleton.mpr rfl)⟩

/-! ## What leads where -/

/-- Some requests lead from tables to others. -/
def LeadsTo (t t' : Tables) : Prop := ∃ requests, t.serveAll requests = t'

theorem LeadsTo.refl (t : Tables) : t.LeadsTo t := ⟨[], rfl⟩

theorem LeadsTo.trans (h₁ : t.LeadsTo t') (h₂ : t'.LeadsTo t'') : t.LeadsTo t'' := by
  obtain ⟨xs, rfl⟩ := h₁
  obtain ⟨ys, rfl⟩ := h₂
  exact ⟨xs ++ ys, serveAll_append xs ys t⟩

/-- One request is a way from tables to tables. -/
theorem leadsTo_store (q : Request) (t : Tables) : t.LeadsTo (store q t).2 := ⟨[q], rfl⟩

/-- Tables that can be reached have grown. -/
theorem LeadsTo.extends (h : t.LeadsTo t') : t.Extends t' := by
  obtain ⟨requests, rfl⟩ := h
  exact extends_serveAll requests t

/-- Tables that can be reached are well formed when those before are. -/
theorem LeadsTo.wellFormed (h : t.LeadsTo t') (ht : t.WellFormed) : t'.WellFormed := by
  obtain ⟨requests, rfl⟩ := h
  exact ht.serveAll requests

end Tables

end RunJournal
