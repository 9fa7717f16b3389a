import Mathlib.Data.List.Nodup
import RunJournal.Proofs.Store.Served

/-!
# Tables that are well formed

What holds of the tables at any time, whatever was asked of them before. The four tables share one
counter, and yet every number up to the counter is the identifier of exactly one row; a table lists
its rows in the order of their identifiers; no two attempts and no two shards have the same key; and
a row that stands under another one comes after it.

`WellFormed` is the invariant and `wellFormed_serveAll` the main statement. A request makes a row,
which takes the next identifier (`WellFormed.addAttempt` and its siblings), or changes a value that
a row does not hold for good and that neither identifies it nor ties it to another (`SameRows`).
-/

namespace RunJournal

namespace Tables

/-- The identifiers of all rows, table by table. -/
def ids (t : Tables) : List Int :=
  t.attempts.map (·.id.value) ++ t.matrices.map (·.id.value) ++ t.specs.map (·.id.value) ++
    t.tests.map (·.id.value)

/-- Tables as requests leave them. -/
structure WellFormed (t : Tables) : Prop where
  /-- No two rows of any tables have the same identifier. -/
  ids_nodup : t.ids.Nodup
  /-- The identifiers are the numbers from 1 up to the one that was given last, without a gap. -/
  mem_ids : ∀ id, id ∈ t.ids ↔ 1 ≤ id ∧ id ≤ t.lastId
  attempts_sorted : (t.attempts.map (·.id.value)).Pairwise (· < ·)
  matrices_sorted : (t.matrices.map (·.id.value)).Pairwise (· < ·)
  specs_sorted : (t.specs.map (·.id.value)).Pairwise (· < ·)
  tests_sorted : (t.tests.map (·.id.value)).Pairwise (· < ·)
  attempt_keys : (t.attempts.map (·.values.key)).Nodup
  matrix_keys : (t.matrices.map (·.values.key)).Nodup
  /-- A shard belongs to an attempt that was made before it. -/
  matrix_attempt : ∀ r ∈ t.matrices, r.values.attemptId ∈ t.attempts.map (·.id) ∧
    r.values.attemptId.value < r.id.value
  /-- A spec belongs to a shard that was made before it. -/
  spec_matrix : ∀ r ∈ t.specs, r.matrixId ∈ t.matrices.map (·.id) ∧ r.matrixId.value < r.id.value
  /-- A test belongs to a spec that was made before it. -/
  test_spec : ∀ r ∈ t.tests, r.values.specId ∈ t.specs.map (·.id) ∧
    r.values.specId.value < r.id.value

variable {t t' : Tables}

theorem hasAttempt_iff {id : AttemptId} :
    t.hasAttempt id = true ↔ id ∈ t.attempts.map (·.id) := by
  simp [hasAttempt]

theorem hasMatrix_iff {id : MatrixId} : t.hasMatrix id = true ↔ id ∈ t.matrices.map (·.id) := by
  simp [hasMatrix]

theorem hasSpec_iff {id : SpecId} : t.hasSpec id = true ↔ id ∈ t.specs.map (·.id) := by
  simp [hasSpec]

/-! ## Identifiers -/

theorem attempts_subset_ids : t.attempts.map (·.id.value) ⊆ t.ids := by
  rw [ids, List.append_assoc, List.append_assoc]
  exact List.subset_append_left _ _

theorem matrices_subset_ids : t.matrices.map (·.id.value) ⊆ t.ids := by
  rw [ids, List.append_assoc]
  exact List.subset_append_of_subset_left _ (List.subset_append_right _ _)

theorem specs_subset_ids : t.specs.map (·.id.value) ⊆ t.ids :=
  List.subset_append_of_subset_left _ (List.subset_append_right _ _)

theorem tests_subset_ids : t.tests.map (·.id.value) ⊆ t.ids := List.subset_append_right _ _

theorem mem_ids_of_attempt {id : AttemptId} (h : id ∈ t.attempts.map (·.id)) :
    id.value ∈ t.ids := by
  obtain ⟨r, hr, rfl⟩ := List.mem_map.mp h
  exact attempts_subset_ids (List.mem_map_of_mem hr)

theorem mem_ids_of_matrix {id : MatrixId} (h : id ∈ t.matrices.map (·.id)) :
    id.value ∈ t.ids := by
  obtain ⟨r, hr, rfl⟩ := List.mem_map.mp h
  exact matrices_subset_ids (List.mem_map_of_mem hr)

theorem mem_ids_of_spec {id : SpecId} (h : id ∈ t.specs.map (·.id)) : id.value ∈ t.ids := by
  obtain ⟨r, hr, rfl⟩ := List.mem_map.mp h
  exact specs_subset_ids (List.mem_map_of_mem hr)

namespace WellFormed

/-- No row has an identifier that is still to be given. -/
theorem lt_freshId (h : t.WellFormed) {id : Int} (hid : id ∈ t.ids) :
    id < ((t.lastId + 1 : Nat) : Int) := by
  have hle := ((h.mem_ids id).mp hid).2
  omega

/-- An attempt is told by its identifier. -/
theorem attempt_eq_of_id (h : t.WellFormed) {a b : AttemptRow} (ha : a ∈ t.attempts)
    (hb : b ∈ t.attempts) (hid : a.id = b.id) : a = b := by
  have hnodup : (t.attempts.map (·.id.value)).Nodup := h.attempts_sorted.imp Int.ne_of_lt
  exact List.inj_on_of_nodup_map hnodup ha hb (congrArg RowId.value hid)

/-- A shard is told by its identifier. -/
theorem matrix_eq_of_id (h : t.WellFormed) {a b : MatrixRow} (ha : a ∈ t.matrices)
    (hb : b ∈ t.matrices) (hid : a.id = b.id) : a = b := by
  have hnodup : (t.matrices.map (·.id.value)).Nodup := h.matrices_sorted.imp Int.ne_of_lt
  exact List.inj_on_of_nodup_map hnodup ha hb (congrArg RowId.value hid)

/-- A spec is told by its identifier. -/
theorem spec_eq_of_id (h : t.WellFormed) {a b : SpecRow} (ha : a ∈ t.specs) (hb : b ∈ t.specs)
    (hid : a.id = b.id) : a = b := by
  have hnodup : (t.specs.map (·.id.value)).Nodup := h.specs_sorted.imp Int.ne_of_lt
  exact List.inj_on_of_nodup_map hnodup ha hb (congrArg RowId.value hid)

/-- An attempt is told by its key. -/
theorem attempt_eq_of_key (h : t.WellFormed) {a b : AttemptRow} (ha : a ∈ t.attempts)
    (hb : b ∈ t.attempts) (hkey : a.values.key = b.values.key) : a = b :=
  List.inj_on_of_nodup_map h.attempt_keys ha hb hkey

/-- A shard is told by its key. -/
theorem matrix_eq_of_key (h : t.WellFormed) {a b : MatrixRow} (ha : a ∈ t.matrices)
    (hb : b ∈ t.matrices) (hkey : a.values.key = b.values.key) : a = b :=
  List.inj_on_of_nodup_map h.matrix_keys ha hb hkey

/-! ## A row is made -/

/-- When one row more takes the next identifier, the identifiers stay distinct and without a gap. -/
theorem ids_of_perm (h : t.WellFormed) (hids : t'.ids.Perm (((t.lastId + 1 : Nat) : Int) :: t.ids))
    (hlast : t'.lastId = t.lastId + 1) :
    t'.ids.Nodup ∧ ∀ id, id ∈ t'.ids ↔ 1 ≤ id ∧ id ≤ t'.lastId := by
  constructor
  · refine hids.nodup_iff.mpr (List.nodup_cons.mpr ⟨fun hmem => ?_, h.ids_nodup⟩)
    exact Int.lt_irrefl _ (h.lt_freshId hmem)
  · intro id
    rw [hids.mem_iff, List.mem_cons, h.mem_ids, hlast]
    omega

/-- A table stays sorted when the next identifier is put at its end. -/
theorem sorted_concat (h : t.WellFormed) {xs : List Int} (hsorted : xs.Pairwise (· < ·))
    (hxs : xs ⊆ t.ids) : (xs ++ [((t.lastId + 1 : Nat) : Int)]).Pairwise (· < ·) := by
  refine List.pairwise_append.mpr ⟨hsorted, List.pairwise_singleton _ _, fun x hx y hy => ?_⟩
  rw [List.mem_singleton.mp hy]
  exact h.lt_freshId (hxs hx)

/-- A new attempt with a new key leaves the tables well formed. -/
theorem addAttempt (h : t.WellFormed) {row : NewAttempt}
    (hnew : ∀ r ∈ t.attempts, r.values.key ≠ row.key) : (t.addAttempt row).WellFormed := by
  -- the ids of the four tables stand one behind the other, so the new one is somewhere in the
  -- middle
  have hperm : (t.addAttempt row).ids.Perm (((t.lastId + 1 : Nat) : Int) :: t.ids) := by
    simp only [ids, Tables.addAttempt, List.map_append, List.map_cons, List.map_nil,
      List.append_assoc, List.singleton_append]
    exact List.perm_middle
  obtain ⟨hnodup, hmem⟩ := h.ids_of_perm hperm rfl
  refine ⟨hnodup, hmem, ?_, h.matrices_sorted, h.specs_sorted, h.tests_sorted, ?_, h.matrix_keys,
    fun r hr => ?_, h.spec_matrix, h.test_spec⟩
  · rw [Tables.addAttempt, List.map_append]
    exact h.sorted_concat h.attempts_sorted attempts_subset_ids
  · rw [Tables.addAttempt, List.map_append]
    refine List.nodup_append_comm.mp (List.nodup_cons.mpr ⟨fun hkey => ?_, h.attempt_keys⟩)
    obtain ⟨r, hr, hkey⟩ := List.mem_map.mp hkey
    exact hnew r hr hkey
  · rw [Tables.addAttempt, List.map_append]
    exact ⟨List.mem_append_left _ (h.matrix_attempt r hr).1, (h.matrix_attempt r hr).2⟩

/-- A new matrix of a known attempt leaves the tables well formed. -/
theorem addMatrix (h : t.WellFormed) {row : NewMatrix}
    (hnew : ∀ r ∈ t.matrices, r.values.key ≠ row.key) (hattempt : t.hasAttempt row.attemptId = true) :
    (t.addMatrix row).WellFormed := by
  have hperm : (t.addMatrix row).ids.Perm (((t.lastId + 1 : Nat) : Int) :: t.ids) := by
    simp only [ids, Tables.addMatrix, List.map_append, List.map_cons, List.map_nil,
      List.append_assoc, List.singleton_append]
    exact (List.perm_middle.append_left _).trans List.perm_middle
  have hmem_attempt := hasAttempt_iff.mp hattempt
  obtain ⟨hnodup, hmem⟩ := h.ids_of_perm hperm rfl
  refine ⟨hnodup, hmem, h.attempts_sorted, ?_, h.specs_sorted, h.tests_sorted, h.attempt_keys, ?_,
    fun r hr => ?_, fun r hr => ?_, h.test_spec⟩
  · rw [Tables.addMatrix, List.map_append]
    exact h.sorted_concat h.matrices_sorted matrices_subset_ids
  · rw [Tables.addMatrix, List.map_append]
    refine List.nodup_append_comm.mp (List.nodup_cons.mpr ⟨fun hkey => ?_, h.matrix_keys⟩)
    obtain ⟨r, hr, hkey⟩ := List.mem_map.mp hkey
    exact hnew r hr hkey
  · rcases List.mem_append.mp hr with hr | hr
    · exact h.matrix_attempt r hr
    -- the new row refers to a row that was there, hence to a smaller id
    · rw [List.mem_singleton.mp hr]
      exact ⟨hmem_attempt, h.lt_freshId (mem_ids_of_attempt hmem_attempt)⟩
  · rw [Tables.addMatrix, List.map_append]
    exact ⟨List.mem_append_left _ (h.spec_matrix r hr).1, (h.spec_matrix r hr).2⟩

theorem addSpec (h : t.WellFormed) (name : String) {matrix : MatrixId}
    (hmatrix : t.hasMatrix matrix = true) : (t.addSpec name matrix).WellFormed := by
  have hperm : (t.addSpec name matrix).ids.Perm (((t.lastId + 1 : Nat) : Int) :: t.ids) := by
    simp only [ids, Tables.addSpec, List.map_append, List.map_cons, List.map_nil,
      List.append_assoc, List.singleton_append]
    refine (List.Perm.append_left _ ?_).trans List.perm_middle
    exact (List.perm_middle.append_left _).trans List.perm_middle
  have hmem_matrix := hasMatrix_iff.mp hmatrix
  obtain ⟨hnodup, hmem⟩ := h.ids_of_perm hperm rfl
  refine ⟨hnodup, hmem, h.attempts_sorted, h.matrices_sorted, ?_, h.tests_sorted, h.attempt_keys,
    h.matrix_keys, h.matrix_attempt, fun r hr => ?_, fun r hr => ?_⟩
  · rw [Tables.addSpec, List.map_append]
    exact h.sorted_concat h.specs_sorted specs_subset_ids
  · rcases List.mem_append.mp hr with hr | hr
    · exact h.spec_matrix r hr
    · rw [List.mem_singleton.mp hr]
      exact ⟨hmem_matrix, h.lt_freshId (mem_ids_of_matrix hmem_matrix)⟩
  · rw [Tables.addSpec, List.map_append]
    exact ⟨List.mem_append_left _ (h.test_spec r hr).1, (h.test_spec r hr).2⟩

/-- A new test of a known spec leaves the tables well formed. -/
theorem addTest (h : t.WellFormed) {row : NewTest} (hspec : t.hasSpec row.specId = true) :
    (t.addTest row).WellFormed := by
  have hperm : (t.addTest row).ids.Perm (((t.lastId + 1 : Nat) : Int) :: t.ids) := by
    simp only [ids, Tables.addTest, List.map_append, List.map_cons, List.map_nil]
    rw [← List.append_assoc]
    exact List.perm_append_singleton _ _
  have hmem_spec := hasSpec_iff.mp hspec
  obtain ⟨hnodup, hmem⟩ := h.ids_of_perm hperm rfl
  refine ⟨hnodup, hmem, h.attempts_sorted, h.matrices_sorted, h.specs_sorted, ?_, h.attempt_keys,
    h.matrix_keys, h.matrix_attempt, h.spec_matrix, fun r hr => ?_⟩
  · rw [Tables.addTest, List.map_append]
    exact h.sorted_concat h.tests_sorted tests_subset_ids
  · rcases List.mem_append.mp hr with hr | hr
    · exact h.test_spec r hr
    · rw [List.mem_singleton.mp hr]
      exact ⟨hmem_spec, h.lt_freshId (mem_ids_of_spec hmem_spec)⟩

end WellFormed

/-! ## A value changes -/

/-- Tables with the same rows, as far as these hold something for good. -/
structure SameRows (t t' : Tables) : Prop where
  attempts : t'.attempts.map AttemptRow.lasting = t.attempts.map AttemptRow.lasting
  matrices : t'.matrices.map MatrixRow.lasting = t.matrices.map MatrixRow.lasting
  specs : t'.specs.map SpecRow.lasting = t.specs.map SpecRow.lasting
  tests : t'.tests = t.tests
  lastId : t'.lastId = t.lastId

/-- A summary changes no id, key or reference; nor does a status, an end time or the closing of a
store. -/
theorem sameRows_setSummary (spec : SpecId) (summary : SpecSummary) (t : Tables) :
    t.SameRows (t.setSummary spec summary) := by
  refine ⟨rfl, rfl, ?_, rfl, rfl⟩
  rw [setSummary, List.map_map]
  refine List.map_congr_left fun r _ => ?_
  simp only [Function.comp]
  split <;> rfl

theorem sameRows_markDone (matrix : MatrixId) (t : Tables) : t.SameRows (t.markDone matrix) := by
  refine ⟨rfl, ?_, rfl, rfl, rfl⟩
  rw [markDone, List.map_map]
  refine List.map_congr_left fun r _ => ?_
  simp only [Function.comp]
  split <;> rfl

theorem sameRows_setEndTime (attempt : AttemptId) (endTime : Timestamp) (t : Tables) :
    t.SameRows (t.setEndTime attempt endTime) := by
  refine ⟨?_, rfl, rfl, rfl, rfl⟩
  rw [setEndTime, List.map_map]
  refine List.map_congr_left fun r _ => ?_
  simp only [Function.comp]
  split <;> rfl

theorem sameRows_shut (t : Tables) : t.SameRows t.shut := ⟨rfl, rfl, rfl, rfl, rfl⟩

/-- Rows that hold the same are the same in whatever is read off what they hold. -/
theorem map_eq_of_map_eq {α β γ : Type} {xs ys : List α} {f : α → β} (g : β → γ)
    (h : xs.map f = ys.map f) : xs.map (fun x => g (f x)) = ys.map fun x => g (f x) := by
  simpa only [List.map_map, Function.comp_def] using congrArg (List.map g) h

namespace SameRows

theorem attempt_ids (h : t.SameRows t') : t'.attempts.map (·.id) = t.attempts.map (·.id) :=
  map_eq_of_map_eq Prod.fst h.attempts

theorem matrix_ids (h : t.SameRows t') : t'.matrices.map (·.id) = t.matrices.map (·.id) :=
  map_eq_of_map_eq Prod.fst h.matrices

theorem spec_ids (h : t.SameRows t') : t'.specs.map (·.id) = t.specs.map (·.id) :=
  map_eq_of_map_eq Prod.fst h.specs

theorem attempt_keys (h : t.SameRows t') :
    t'.attempts.map (·.values.key) = t.attempts.map (·.values.key) :=
  map_eq_of_map_eq (fun p => p.2.key) h.attempts

theorem matrix_keys (h : t.SameRows t') :
    t'.matrices.map (·.values.key) = t.matrices.map (·.values.key) :=
  map_eq_of_map_eq (fun p => p.2.key) h.matrices

/-- A shard comes from one that held the same. -/
theorem exists_matrix (h : t.SameRows t') {r' : MatrixRow} (hr : r' ∈ t'.matrices) :
    ∃ r ∈ t.matrices, r.lasting = r'.lasting := by
  have hmem := List.mem_map_of_mem (f := MatrixRow.lasting) hr
  rw [h.matrices] at hmem
  exact List.mem_map.mp hmem

/-- A spec comes from one that held the same. -/
theorem exists_spec (h : t.SameRows t') {r' : SpecRow} (hr : r' ∈ t'.specs) :
    ∃ r ∈ t.specs, r.lasting = r'.lasting := by
  have hmem := List.mem_map_of_mem (f := SpecRow.lasting) hr
  rw [h.specs] at hmem
  exact List.mem_map.mp hmem

/-- Whether tables are well formed depends only on what their rows hold for good. -/
theorem wellFormed (hs : t.SameRows t') (h : t.WellFormed) : t'.WellFormed := by
  have hattempts : t'.attempts.map (·.id.value) = t.attempts.map (·.id.value) :=
    map_eq_of_map_eq RowId.value hs.attempt_ids
  have hmatrices : t'.matrices.map (·.id.value) = t.matrices.map (·.id.value) :=
    map_eq_of_map_eq RowId.value hs.matrix_ids
  have hspecs : t'.specs.map (·.id.value) = t.specs.map (·.id.value) :=
    map_eq_of_map_eq RowId.value hs.spec_ids
  have hids : t'.ids = t.ids := by
    rw [ids, ids, hattempts, hmatrices, hspecs, hs.tests]
  -- what is asked of the tables speaks of ids, keys and references alone
  refine ⟨hids ▸ h.ids_nodup, ?_, hattempts ▸ h.attempts_sorted, hmatrices ▸ h.matrices_sorted,
    hspecs ▸ h.specs_sorted, hs.tests ▸ h.tests_sorted, hs.attempt_keys ▸ h.attempt_keys,
    hs.matrix_keys ▸ h.matrix_keys, fun r' hr => ?_, fun r' hr => ?_, fun r hr => ?_⟩
  · rw [hids, hs.lastId]
    exact h.mem_ids
  · obtain ⟨r, hr, hlasting⟩ := hs.exists_matrix hr
    have hid : r.id = r'.id := congrArg Prod.fst hlasting
    have hattempt : r.values.attemptId = r'.values.attemptId :=
      congrArg (fun p => p.2.attemptId) hlasting
    rw [hs.attempt_ids, ← hid, ← hattempt]
    exact h.matrix_attempt r hr
  · obtain ⟨r, hr, hlasting⟩ := hs.exists_spec hr
    have hid : r.id = r'.id := congrArg Prod.fst hlasting
    have hmatrix : r.matrixId = r'.matrixId := congrArg (fun p => p.2.2) hlasting
    rw [hs.matrix_ids, ← hid, ← hmatrix]
    exact h.spec_matrix r hr
  · rw [hs.tests] at hr
    rw [hs.spec_ids]
    exact h.test_spec r hr

end SameRows

/-! ## Requests -/

theorem wellFormed_empty : empty.WellFormed where
  ids_nodup := List.nodup_nil
  mem_ids id := by
    show id ∈ [] ↔ 1 ≤ id ∧ id ≤ ((0 : Nat) : Int)
    simp only [List.not_mem_nil, false_iff]
    omega
  attempts_sorted := List.Pairwise.nil
  matrices_sorted := List.Pairwise.nil
  specs_sorted := List.Pairwise.nil
  tests_sorted := List.Pairwise.nil
  attempt_keys := List.nodup_nil
  matrix_keys := List.nodup_nil
  matrix_attempt _ hr := absurd hr List.not_mem_nil
  spec_matrix _ hr := absurd hr List.not_mem_nil
  test_spec _ hr := absurd hr List.not_mem_nil

/-- **A request that is served leaves well-formed tables behind.** -/
theorem Served.wellFormed {q : Request} {answer : q.Answer} (hserved : Served t q answer t')
    (h : t.WellFormed) : t'.WellFormed := by
  cases hserved with
  | attemptFound hmem hkey => exact h
  | attemptMade hnew => exact h.addAttempt hnew
  | matrixFound hmem hkey => exact h
  | matrixMade hnew hattempt => exact h.addMatrix hnew hattempt
  | specMade hmatrix => exact h.addSpec _ hmatrix
  | specCompleted hspec => exact (sameRows_setSummary _ _ t).wellFormed h
  | testMade hspec => exact h.addTest hspec
  | matrixFinished hmatrix => exact (sameRows_markDone _ t).wellFormed h
  | attemptFinished hattempt => exact (sameRows_setEndTime _ _ t).wellFormed h
  | closed => exact (sameRows_shut t).wellFormed h

/-- Well-formed tables stay so through any sequence of requests. -/
theorem WellFormed.serveAll (h : t.WellFormed) (requests : List Request) :
    (t.serveAll requests).WellFormed :=
  serveAll_induction requests h fun ht hserved => hserved.wellFormed ht

/-- **Tables are well formed at any time.** Whatever was asked of empty tables, in whatever order
and through whatever handles, and whether it was done or failed. -/
theorem wellFormed_serveAll (requests : List Request) :
    (empty.serveAll requests).WellFormed :=
  wellFormed_empty.serveAll requests

end Tables

end RunJournal
