import RunJournal.Proofs.Database.Naming
import RunJournal.Proofs.Database.Served
import RunJournal.Proofs.Store.WellFormed

/-!
# Databases that are copies of tables in memory

A database is a copy of tables in memory, by a naming, when it has the same rows under other names,
in whatever order (`Copies`). Two things may differ. Attempts may have ended at different times, and
what a column has taken as JSON reads as the server writes it.

`Served.simulated` is the main statement. When both stores serve the same request, the database is a
copy of the tables afterwards, by a naming that has changed for the row that was made only, and the
answers are the same under that naming.
-/

namespace RunJournal

/-- An attempt without the time of its end. -/
def AttemptRow.timeless (r : AttemptRow) : AttemptId × NewAttempt × Bool :=
  (r.id, r.values, r.endTime.isSome)

/-- What is left of an attempt without the time of its end, once `attempt` has ended. -/
def endedBy (attempt : AttemptId) (p : AttemptId × NewAttempt × Bool) :
    AttemptId × NewAttempt × Bool :=
  if p.1 = attempt then (p.1, p.2.1, true) else p

/-- Ending an attempt is seen without its time: that there is one, not which. -/
theorem AttemptRow.timeless_end (r : AttemptRow) (attempt : AttemptId) (endTime : Timestamp) :
    (if r.id = attempt then { r with endTime := some endTime } else r).timeless =
      endedBy attempt r.timeless := by
  by_cases h : r.id = attempt
  · rw [if_pos h, endedBy, if_pos (show r.timeless.1 = attempt from h)]
    rfl
  · rw [if_neg h, endedBy, if_neg (show ¬ r.timeless.1 = attempt from h)]

/-- A test as a server keeps it. -/
def TestRow.stored (rules : ServerRules) (r : TestRow) : TestRow :=
  ⟨r.id, { r.values with retryData := rules.json r.values.retryData }⟩

namespace Tables

/-- The identifiers of a table. -/
def idsOf (t : Tables) : Table → List Int
  | .attempt => t.attempts.map (·.id.value)
  | .matrix => t.matrices.map (·.id.value)
  | .specs => t.specs.map (·.id.value)
  | .tests => t.tests.map (·.id.value)

/-- A row of the table of `id` has this identifier. -/
def Has {table : Table} (t : Tables) (id : RowId table) : Prop := id.value ∈ t.idsOf table

/-- Two namings are the same for the rows of tables. -/
def Agree (t : Tables) (ν ν' : Naming) : Prop :=
  ∀ table, ∀ id ∈ t.idsOf table, ν'.rename table id = ν.rename table id

end Tables

/-- A database has the rows of tables in memory, under other names. -/
structure Copies (rules : ServerRules) (ν : Naming) (t : Tables) (d : Database) : Prop where
  attempts : d.attempts.map AttemptRow.timeless =
    (t.attempts.map fun r => (r.under ν).timeless : List _)
  matrices : d.matrices = (t.matrices.map (·.under ν) : List _)
  specs : d.specs = (t.specs.map (·.under ν) : List _)
  tests : d.tests = (t.tests.map fun r => (r.under ν).stored rules : List _)

variable {rules : ServerRules} {ν ν' ν'' : Naming} {t t' : Tables} {d d' : Database} {table : Table}

/-! ## Rows of tables -/

namespace Tables

theorem has_attempt_iff {id : AttemptId} : t.Has id ↔ t.hasAttempt id = true := by
  rw [hasAttempt_iff, Has, idsOf, List.mem_map, List.mem_map]
  exact exists_congr fun r => and_congr_right fun _ => ⟨fun h => congrArg RowId.mk h, congrArg _⟩

theorem has_matrix_iff {id : MatrixId} : t.Has id ↔ t.hasMatrix id = true := by
  rw [hasMatrix_iff, Has, idsOf, List.mem_map, List.mem_map]
  exact exists_congr fun r => and_congr_right fun _ => ⟨fun h => congrArg RowId.mk h, congrArg _⟩

theorem has_spec_iff {id : SpecId} : t.Has id ↔ t.hasSpec id = true := by
  rw [hasSpec_iff, Has, idsOf, List.mem_map, List.mem_map]
  exact exists_congr fun r => and_congr_right fun _ => ⟨fun h => congrArg RowId.mk h, congrArg _⟩

theorem idsOf_subset_ids (t : Tables) (table : Table) : t.idsOf table ⊆ t.ids := by
  cases table with
  | attempt => exact attempts_subset_ids
  | matrix => exact matrices_subset_ids
  | specs => exact specs_subset_ids
  | tests => exact tests_subset_ids

/-- No row has the identifier that is given next. -/
theorem WellFormed.not_has_freshId (h : t.WellFormed) : ¬ t.Has (t.freshId : RowId table) :=
  fun hmem => Int.lt_irrefl _ (h.lt_freshId (idsOf_subset_ids t table hmem))

theorem Agree.refl (t : Tables) (ν : Naming) : t.Agree ν ν := fun _ _ _ => rfl

/-- Namings that agree step by step agree, as long as no row is lost on the way. -/
theorem Agree.trans (h₁ : t.Agree ν ν') (hsub : ∀ table, t.idsOf table ⊆ t'.idsOf table)
    (h₂ : t'.Agree ν' ν'') : t.Agree ν ν'' :=
  fun table id hid => (h₂ table id (hsub table hid)).trans (h₁ table id hid)

theorem Agree.under (h : t.Agree ν ν') {id : RowId table} (hid : t.Has id) :
    id.under ν' = id.under ν :=
  congrArg RowId.mk (h table id.value hid)

end Tables

/-- Keys are the same under a naming when they are the same without it. -/
theorem NewMatrix.key_under_inj {a b : NewMatrix} :
    (a.under ν).key = (b.under ν).key ↔ a.key = b.key := by
  simp only [key, NewMatrix.under, Prod.mk.injEq, RowId.under_inj]

namespace Copies

/-! ## Rows of copies -/

/-- A copy has the ids of the original under their names. -/
theorem ids (h : Copies rules ν t d) (table : Table) :
    d.ids table = ((t.idsOf table).map (ν.rename table) : List Int) := by
  cases table with
  | attempt =>
    have hids := congrArg (Multiset.map fun p => p.1.value) h.attempts
    rw [Multiset.map_map, Multiset.map_coe, List.map_map] at hids
    rw [Database.ids, Tables.idsOf, List.map_map]
    exact hids
  | matrix =>
    rw [Database.ids, h.matrices, Multiset.map_coe, List.map_map, Tables.idsOf, List.map_map]
    rfl
  | specs =>
    rw [Database.ids, h.specs, Multiset.map_coe, List.map_map, Tables.idsOf, List.map_map]
    rfl
  | tests =>
    rw [Database.ids, h.tests, Multiset.map_coe, List.map_map, Tables.idsOf, List.map_map]
    rfl

/-- A copy has a row by its name exactly when the original has the row. -/
theorem has_under_iff (h : Copies rules ν t d) {id : RowId table} :
    d.Has (id.under ν) ↔ t.Has id := by
  rw [Database.Has, h.ids, Multiset.mem_coe]
  exact List.mem_map_of_injective (ν.injective table)

/-- Every attempt has its copy. -/
theorem exists_attempt (h : Copies rules ν t d) {r : AttemptRow} (hr : r ∈ t.attempts) :
    ∃ r' ∈ d.attempts, r'.id = r.id.under ν ∧ r'.values = r.values := by
  have hmem : (r.under ν).timeless ∈ d.attempts.map AttemptRow.timeless := by
    rw [h.attempts, Multiset.mem_coe]
    exact List.mem_map_of_mem hr
  obtain ⟨r', hr', htimeless⟩ := Multiset.mem_map.mp hmem
  exact ⟨r', hr', congrArg Prod.fst htimeless, congrArg (fun p => p.2.1) htimeless⟩

/-- Every attempt of a copy has its original. -/
theorem exists_original_attempt (h : Copies rules ν t d) {r' : AttemptRow} (hr' : r' ∈ d.attempts) :
    ∃ r ∈ t.attempts, r'.id = r.id.under ν ∧ r'.values = r.values := by
  have hmem := Multiset.mem_map_of_mem AttemptRow.timeless hr'
  rw [h.attempts, Multiset.mem_coe] at hmem
  obtain ⟨r, hr, htimeless⟩ := List.mem_map.mp hmem
  exact ⟨r, hr, congrArg Prod.fst htimeless.symm, congrArg (fun p => p.2.1) htimeless.symm⟩

/-- The matrices of a copy are those of the original, named. -/
theorem mem_matrices_iff (h : Copies rules ν t d) {r' : MatrixRow} :
    r' ∈ d.matrices ↔ ∃ r ∈ t.matrices, r.under ν = r' := by
  rw [h.matrices, Multiset.mem_coe, List.mem_map]

/-! ## Other namings of the same rows -/

/-- It does not matter what becomes of identifiers that no row has. -/
theorem congr (h : Copies rules ν t d) (ht : t.WellFormed) (hagree : t.Agree ν ν') :
    Copies rules ν' t d := by
  have hattempt : ∀ id ∈ t.attempts.map (·.id), id.under ν' = id.under ν := fun id hid =>
    hagree.under (Tables.has_attempt_iff.mpr (Tables.hasAttempt_iff.mpr hid))
  have hmatrix : ∀ id ∈ t.matrices.map (·.id), id.under ν' = id.under ν := fun id hid =>
    hagree.under (Tables.has_matrix_iff.mpr (Tables.hasMatrix_iff.mpr hid))
  have hspec : ∀ id ∈ t.specs.map (·.id), id.under ν' = id.under ν := fun id hid =>
    hagree.under (Tables.has_spec_iff.mpr (Tables.hasSpec_iff.mpr hid))
  -- row by row, with the ids of the row and of what it refers to
  refine ⟨h.attempts.trans ?_, h.matrices.trans ?_, h.specs.trans ?_, h.tests.trans ?_⟩
  · refine congrArg _ (List.map_congr_left fun r hr => ?_)
    rw [AttemptRow.under, AttemptRow.under, hattempt _ (List.mem_map_of_mem hr)]
  · refine congrArg _ (List.map_congr_left fun r hr => ?_)
    rw [MatrixRow.under, MatrixRow.under, NewMatrix.under, NewMatrix.under,
      hmatrix _ (List.mem_map_of_mem hr), hattempt _ (ht.matrix_attempt r hr).1]
  · refine congrArg _ (List.map_congr_left fun r hr => ?_)
    rw [SpecRow.under, SpecRow.under, hspec _ (List.mem_map_of_mem hr),
      hmatrix _ (ht.spec_matrix r hr).1]
  · refine congrArg _ (List.map_congr_left fun r hr => ?_)
    have htest : r.id.under ν' = r.id.under ν := hagree.under (List.mem_map_of_mem hr)
    rw [TestRow.under, TestRow.under, NewTest.under, NewTest.under, htest,
      hspec _ (ht.test_spec r hr).1]

/-- A name that is free in the database is given to the next row; all other rows keep theirs. -/
theorem agree_assign (h : Copies rules ν t d) (ht : t.WellFormed) {name : RowId table}
    (hname : ¬ d.Has name) : t.Agree ν (ν.assign t.freshId name) := by
  intro other id hid
  by_cases hother : other = table
  · subst hother
    refine Naming.rename_assign_of_ne (fun heq => ?_) fun heq => hname ?_
    · rw [heq] at hid
      exact ht.not_has_freshId hid
    · rw [Database.Has, h.ids, Multiset.mem_coe, ← heq]
      exact List.mem_map_of_mem hid
  · exact Naming.rename_assign_of_table_ne hother ν _ _ id

/-! ## A row is made -/

/-- A row that comes last in a list comes anywhere in a multiset. -/
theorem coe_map_concat {α β : Type} (f : α → β) (xs : List α) (x : α) :
    ((xs ++ [x]).map f : Multiset β) = f x ::ₘ (xs.map f : List β) := by
  rw [List.map_append, List.map_singleton, Multiset.cons_coe, Multiset.coe_eq_coe]
  exact List.perm_append_singleton _ _

/-- A new attempt on both sides leaves a copy a copy when it has the name of the new id. -/
theorem addAttempt (h : Copies rules ν t d) {name : AttemptId} (hname : t.freshId.under ν = name)
    (row : NewAttempt) : Copies rules ν (t.addAttempt row) (d.addAttempt name row) := by
  refine ⟨?_, h.matrices, h.specs, h.tests⟩
  rw [Database.addAttempt, Multiset.map_cons, h.attempts, Tables.addAttempt, coe_map_concat,
    ← hname]
  rfl

/-- A new matrix, with its attempt named, leaves a copy a copy. -/
theorem addMatrix (h : Copies rules ν t d) {name : MatrixId} (hname : t.freshId.under ν = name)
    (row : NewMatrix) : Copies rules ν (t.addMatrix row) (d.addMatrix name (row.under ν)) := by
  refine ⟨h.attempts, ?_, h.specs, h.tests⟩
  rw [Database.addMatrix, h.matrices, Tables.addMatrix, coe_map_concat, ← hname]
  rfl

theorem addSpec (h : Copies rules ν t d) {id : SpecId} (hname : t.freshId.under ν = id)
    (name : String) (matrix : MatrixId) :
    Copies rules ν (t.addSpec name matrix) (d.addSpec id name (matrix.under ν)) := by
  refine ⟨h.attempts, h.matrices, ?_, h.tests⟩
  rw [Database.addSpec, h.specs, Tables.addSpec, coe_map_concat, ← hname]
  rfl

/-- A new test leaves a copy a copy, with its history as the server keeps texts of that kind. -/
theorem addTest (h : Copies rules ν t d) {name : TestId} (hname : t.freshId.under ν = name)
    (row : NewTest) : Copies rules ν (t.addTest row) (d.addTest name
      { row.under ν with retryData := rules.json (row.under ν).retryData }) := by
  refine ⟨h.attempts, h.matrices, h.specs, ?_⟩
  rw [Database.addTest, h.tests, Tables.addTest, coe_map_concat, ← hname]
  rfl

/-! ## A value changes -/

theorem setSummary (h : Copies rules ν t d) (spec : SpecId) (summary : SpecSummary) :
    Copies rules ν (t.setSummary spec summary) (d.setSummary (spec.under ν) summary) := by
  refine ⟨h.attempts, h.matrices, ?_, h.tests⟩
  rw [Database.setSummary, h.specs, Tables.setSummary, Multiset.map_coe, List.map_map, List.map_map]
  refine congrArg _ (List.map_congr_left fun r _ => ?_)
  simp only [Function.comp, SpecRow.under, RowId.under_inj]
  split <;> rfl

/-- The status of one matrix on both sides leaves a copy a copy. -/
theorem markDone (h : Copies rules ν t d) (matrix : MatrixId) :
    Copies rules ν (t.markDone matrix) (d.markDone (matrix.under ν)) := by
  refine ⟨h.attempts, ?_, h.specs, h.tests⟩
  rw [Database.markDone, h.matrices, Tables.markDone, Multiset.map_coe, List.map_map, List.map_map]
  refine congrArg _ (List.map_congr_left fun r _ => ?_)
  simp only [Function.comp, MatrixRow.under, RowId.under_inj]
  split <;> rfl

/-- The end of one attempt leaves a copy a copy, whatever the times on either side. -/
theorem setEndTime (h : Copies rules ν t d) (attempt : AttemptId) (endTime now : Timestamp) :
    Copies rules ν (t.setEndTime attempt endTime) (d.setEndTime (attempt.under ν) now) := by
  refine ⟨?_, h.matrices, h.specs, h.tests⟩
  rw [Database.setEndTime, Multiset.map_map, Tables.setEndTime, List.map_map]
  -- the end of a row and then what is seen of it, against what is seen and then the end of that
  calc d.attempts.map _
      = (d.attempts.map AttemptRow.timeless).map (endedBy (attempt.under ν)) := by
        rw [Multiset.map_map]
        exact Multiset.map_congr rfl fun r _ => r.timeless_end (attempt.under ν) now
    _ = _ := by
        rw [h.attempts, Multiset.map_coe, List.map_map]
        refine congrArg _ (List.map_congr_left fun r _ => ?_)
        rw [Function.comp_apply, ← AttemptRow.timeless_end _ (attempt.under ν) endTime]
        simp only [Function.comp, AttemptRow.under, RowId.under_inj]
        split <;> rfl

theorem shut (h : Copies rules ν t d) : Copies rules ν t.shut d :=
  ⟨h.attempts, h.matrices, h.specs, h.tests⟩

end Copies

/-! ## Requests -/

/-- A row was made in both stores, and the naming is changed for it. -/
theorem Copies.exists_naming (h : Copies rules ν t d) (ht : t.WellFormed) {name : RowId table}
    (hname : ¬ d.Has name) :
    ∃ ν', t.Agree ν ν' ∧ t.freshId.under ν' = name ∧ Copies rules ν' t d := by
  have hagree := h.agree_assign ht hname
  exact ⟨_, hagree, Naming.under_assign_self ν _ name, h.congr ht hagree⟩

/-- **Stores that serve the same request stay copies.** -/
theorem Tables.Served.simulated {q : Request} {a : q.Answer} {now : Timestamp}
    {b : (q.under ν now).Answer} (hserved : t.Served q a t')
    (hserves : d.Serves rules (q.under ν now) b d') (ht : t.WellFormed)
    (h : Copies rules ν t d) :
    ∃ ν', t.Agree ν ν' ∧ b = q.answerUnder ν now ν' a ∧ Copies rules ν' t' d' := by
  -- a row that one of the two finds and the other makes is no case, since the keys are the same
  cases hserved with
  | @attemptFound row r hmem hkey =>
    cases hserves with
    | @attemptFound _ r' hmem' hkey' =>
      obtain ⟨r₀, hr₀, hid, hvalues⟩ := h.exists_original_attempt hmem'
      rw [hvalues] at hkey'
      cases ht.attempt_eq_of_key hr₀ hmem (hkey'.trans hkey.symm)
      exact ⟨ν, .refl t ν, hid, h⟩
    | attemptMade name hnew hfresh =>
      obtain ⟨r', hr', -, hvalues⟩ := h.exists_attempt hmem
      exact absurd (hvalues ▸ hkey) (hnew r' hr')
  | @attemptMade row hnew =>
    cases hserves with
    | attemptFound hmem' hkey' =>
      obtain ⟨r₀, hr₀, -, hvalues⟩ := h.exists_original_attempt hmem'
      exact absurd (hvalues ▸ hkey') (hnew r₀ hr₀)
    | attemptMade name hnew' hfresh =>
      obtain ⟨ν', hagree, hname, h'⟩ := h.exists_naming ht hfresh
      exact ⟨ν', hagree, hname.symm, h'.addAttempt hname row⟩
  | @matrixFound row r hmem hkey =>
    cases hserves with
    | @matrixFound _ r' hmem' hkey' =>
      obtain ⟨r₀, hr₀, rfl⟩ := h.mem_matrices_iff.mp hmem'
      cases ht.matrix_eq_of_key hr₀ hmem ((NewMatrix.key_under_inj.mp hkey').trans hkey.symm)
      exact ⟨ν, .refl t ν, rfl, h⟩
    | matrixMade name hnew hfresh =>
      exact absurd (NewMatrix.key_under_inj.mpr hkey)
        (hnew _ (h.mem_matrices_iff.mpr ⟨r, hmem, rfl⟩))
  | @matrixMade row hnew hattempt =>
    cases hserves with
    | matrixFound hmem' hkey' =>
      obtain ⟨r₀, hr₀, rfl⟩ := h.mem_matrices_iff.mp hmem'
      exact absurd (NewMatrix.key_under_inj.mp hkey') (hnew r₀ hr₀)
    | matrixMade name hnew' hfresh =>
      obtain ⟨ν', hagree, hname, h'⟩ := h.exists_naming ht hfresh
      have hrow : row.under ν' = row.under ν := by
        rw [NewMatrix.under, NewMatrix.under, hagree.under (has_attempt_iff.mpr hattempt)]
      exact ⟨ν', hagree, hname.symm, hrow ▸ h'.addMatrix hname row⟩
  | @specMade name matrix hmatrix =>
    cases hserves with
    | specMade id hfresh =>
      obtain ⟨ν', hagree, hname, h'⟩ := h.exists_naming ht hfresh
      have hrow : matrix.under ν' = matrix.under ν := hagree.under (has_matrix_iff.mpr hmatrix)
      exact ⟨ν', hagree, hname.symm, hrow ▸ h'.addSpec hname name matrix⟩
  | @specCompleted spec summary hspec =>
    cases hserves with
    | specCompleted => exact ⟨ν, .refl t ν, rfl, h.setSummary spec summary⟩
  | @testMade row hspec =>
    cases hserves with
    | testMade name hfresh =>
      obtain ⟨ν', hagree, hname, h'⟩ := h.exists_naming ht hfresh
      have hrow : row.under ν' = row.under ν := by
        rw [NewTest.under, NewTest.under, hagree.under (has_spec_iff.mpr hspec)]
      exact ⟨ν', hagree, hname.symm, hrow ▸ h'.addTest hname row⟩
  | @matrixFinished matrix hmatrix =>
    cases hserves with
    | matrixFinished => exact ⟨ν, .refl t ν, rfl, h.markDone matrix⟩
  | @attemptFinished attempt endTime hattempt =>
    cases hserves with
    | attemptFinished => exact ⟨ν, .refl t ν, rfl, h.setEndTime attempt endTime now⟩
  | closed =>
    cases hserves with
    | closed => exact ⟨ν, .refl t ν, rfl, h.shut⟩

end RunJournal
