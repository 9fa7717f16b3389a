import RunJournal.Proofs.Session.Mirror

/-!
# The rows of one shard

Of tables that many recorders share, `Tables.shard` are the rows that belong to one of them: its
shard, the specs of that shard and the tests of those specs. Each row that is made either belongs to
it, and then stands at the end, or leaves it as it is; both are stated for each of the updates that
events come to. Which of the two it is shows in what the recorder remembers whose event it was: its
shard and its spec belong to whoever has its key, and to nobody else
(`RunState.Mirrors.matrix_mem_shard_iff`, `RunState.Mirrors.spec_mem_shard_iff`).
-/

namespace RunJournal

/-- What the shard of a recorder is known by. -/
def Identity.shardKey (i : Identity) : (Int × Int) × String := (i.attemptKey, i.matrixId)

/-- The rows of shards. -/
structure ShardRows where
  matrices : List MatrixRow
  specs : List SpecRow
  tests : List TestRow
deriving DecidableEq, Repr

/-- A spec, with its summary if it is the one that is meant. -/
def SpecRow.summarize (spec : SpecId) (summary : SpecSummary) (r : SpecRow) : SpecRow :=
  if r.id = spec then { r with summary := some summary } else r

theorem SpecRow.id_summarize (spec : SpecId) (summary : SpecSummary) (r : SpecRow) :
    (r.summarize spec summary).id = r.id := by
  rw [summarize]
  split <;> rfl

theorem SpecRow.matrixId_summarize (spec : SpecId) (summary : SpecSummary) (r : SpecRow) :
    (r.summarize spec summary).matrixId = r.matrixId := by
  rw [summarize]
  split <;> rfl

namespace Tables

/-- Whether a row is that of the shard of a recorder: it has the name of the shard, and stands under
the attempt of the recorder. -/
def isShardOf (identity : Identity) (t : Tables) (row : NewMatrix) : Bool :=
  row.matrixId = identity.matrixId ∧
    (t.attempt? row.attemptId).map (·.values.key) = some identity.attemptKey

/-- The shard of a recorder. -/
def shardMatrices (identity : Identity) (t : Tables) : List MatrixRow :=
  t.matrices.filter fun r => t.isShardOf identity r.values

/-- The specs of a recorder. -/
def shardSpecs (identity : Identity) (t : Tables) : List SpecRow :=
  t.specs.filter fun r => r.matrixId ∈ (t.shardMatrices identity).map (·.id)

/-- The tests of a recorder. -/
def shardTests (identity : Identity) (t : Tables) : List TestRow :=
  t.tests.filter fun r => r.values.specId ∈ (t.shardSpecs identity).map (·.id)

/-- The rows that belong to a recorder. -/
def shard (identity : Identity) (t : Tables) : ShardRows :=
  ⟨t.shardMatrices identity, t.shardSpecs identity, t.shardTests identity⟩

variable {t t' : Tables} {identity : Identity}

/-- No row has or refers to an identifier that is still to be given. -/
theorem WellFormed.ne_freshId (h : t.WellFormed) {table : Table} {id : RowId table}
    (hid : id.value ∈ t.ids) : id ≠ t.freshId := fun heq =>
  Int.ne_of_lt (h.lt_freshId hid) (congrArg RowId.value heq)

/-- One row more does not matter to who refers to another one. -/
theorem mem_map_concat_iff {α : Type} {table : Table} {f : α → RowId table} {rows : List α} {new : α}
    {id : RowId table} (hid : id ≠ f new) : id ∈ (rows ++ [new]).map f ↔ id ∈ rows.map f := by
  rw [List.map_append, List.mem_append, List.map_singleton, List.mem_singleton]
  exact or_iff_left hid

theorem filter_concat_of_pos {α : Type} {p : α → Bool} {rows : List α} {new : α} (h : p new = true) :
    (rows ++ [new]).filter p = rows.filter p ++ [new] := by
  simp [h]

theorem filter_concat_of_neg {α : Type} {p : α → Bool} {rows : List α} {new : α}
    (h : p new = false) : (rows ++ [new]).filter p = rows.filter p := by
  simp [h]

/-! ## What belongs to what -/

/-- A row that has the name of the shard of a recorder, and stands under an attempt of its key, is
the shard of those with the same key. -/
theorem isShardOf_iff {other : Identity} {a : AttemptId} {attempt : AttemptRow}
    (hattempt : t.attempt? a = some attempt) (hattempt_key : attempt.values.key = identity.attemptKey)
    {row : NewMatrix} (hkey : row.key = (identity.matrixId, a)) :
    t.isShardOf other row = true ↔ other.shardKey = identity.shardKey := by
  have hname : row.matrixId = identity.matrixId := congrArg Prod.fst hkey
  have hid : row.attemptId = a := congrArg Prod.snd hkey
  rw [isShardOf, decide_eq_true_iff, hname, hid, hattempt, Option.map_some, hattempt_key,
    Option.some.injEq]
  constructor
  · rintro ⟨hmatrix, hattempt⟩
    exact Prod.ext hattempt.symm hmatrix.symm
  · intro hkeys
    exact ⟨(congrArg Prod.snd hkeys).symm, (congrArg Prod.fst hkeys).symm⟩

/-- Specs belong to a recorder by its shard alone. -/
theorem shardSpecs_congr
    (hmatrices : (t'.shardMatrices identity).map (·.id) = (t.shardMatrices identity).map (·.id))
    (hspecs : t'.specs = t.specs) : t'.shardSpecs identity = t.shardSpecs identity := by
  rw [shardSpecs, shardSpecs, hmatrices, hspecs]

/-- Tests belong to a recorder by its specs alone. -/
theorem shardTests_congr
    (hspecs : (t'.shardSpecs identity).map (·.id) = (t.shardSpecs identity).map (·.id))
    (htests : t'.tests = t.tests) : t'.shardTests identity = t.shardTests identity := by
  rw [shardTests, shardTests, hspecs, htests]

/-- What happens to attempts and shards of others leaves the rows of a recorder. -/
theorem shard_congr (hmatrices : t'.shardMatrices identity = t.shardMatrices identity)
    (hspecs : t'.specs = t.specs) (htests : t'.tests = t.tests) :
    t'.shard identity = t.shard identity := by
  have hspecs' := shardSpecs_congr (congrArg (List.map (·.id)) hmatrices) hspecs
  have htests' := shardTests_congr (congrArg (List.map (·.id)) hspecs') htests
  rw [shard, shard, hmatrices, hspecs', htests']

/-! ## An attempt is made -/

/-- A new attempt hides none that was there. -/
theorem attempt?_addAttempt {row : NewAttempt} {id : AttemptId} (hid : id ≠ t.freshId) :
    (t.addAttempt row).attempt? id = t.attempt? id := by
  have hnew : ((t.freshId : AttemptId) == id) = false := beq_false_of_ne hid.symm
  rw [attempt?, addAttempt, List.find?_append, List.find?_singleton]
  simp only [hnew, Bool.false_eq_true, if_false, Option.or_none]
  rfl

/-- An attempt that is made has no shards yet. -/
theorem shard_addAttempt (ht : t.WellFormed) (row : NewAttempt) :
    (t.addAttempt row).shard identity = t.shard identity := by
  refine shard_congr (List.filter_congr fun r hr => ?_) rfl rfl
  have hne := ht.ne_freshId (mem_ids_of_attempt (ht.matrix_attempt r hr).1)
  rw [isShardOf, attempt?_addAttempt hne, isShardOf]

/-! ## A shard is made -/

/-- A matrix of another shard leaves a shard as it is. -/
theorem shard_addMatrix_other {row : NewMatrix} (hother : t.isShardOf identity row = false) :
    (t.addMatrix row).shard identity = t.shard identity :=
  shard_congr (filter_concat_of_neg hother) rfl rfl

/-- A matrix of a shard comes last among its matrices, and brings neither specs nor tests. -/
theorem shard_addMatrix_own (ht : t.WellFormed) {row : NewMatrix}
    (hown : t.isShardOf identity row = true) :
    (t.addMatrix row).shard identity =
      { t.shard identity with matrices := t.shardMatrices identity ++ [⟨t.freshId, row⟩] } := by
  have hmatrices : (t.addMatrix row).shardMatrices identity =
      t.shardMatrices identity ++ [⟨t.freshId, row⟩] := filter_concat_of_pos hown
  -- no spec stands under a shard that was not there
  have hspecs : (t.addMatrix row).shardSpecs identity = t.shardSpecs identity := by
    refine List.filter_congr fun r hr => decide_eq_decide.mpr ?_
    rw [hmatrices]
    exact mem_map_concat_iff (ht.ne_freshId (mem_ids_of_matrix (ht.spec_matrix r hr).1))
  have htests : (t.addMatrix row).shardTests identity = t.shardTests identity :=
    shardTests_congr (congrArg (List.map (·.id)) hspecs) rfl
  rw [shard, hmatrices, hspecs, htests]
  rfl

/-! ## A spec is made or ends -/

theorem shard_addSpec_other {name : String} {matrix : MatrixId}
    (hother : matrix ∉ (t.shardMatrices identity).map (·.id)) :
    (t.addSpec name matrix).shard identity = t.shard identity := by
  have hspecs : (t.addSpec name matrix).shardSpecs identity = t.shardSpecs identity :=
    filter_concat_of_neg (decide_eq_false hother)
  have htests : (t.addSpec name matrix).shardTests identity = t.shardTests identity :=
    shardTests_congr (congrArg (List.map (·.id)) hspecs) rfl
  rw [shard, hspecs, htests]
  rfl

/-- A spec of a shard comes last among its specs, and brings no tests. -/
theorem shard_addSpec_own (ht : t.WellFormed) {name : String} {matrix : MatrixId}
    (hown : matrix ∈ (t.shardMatrices identity).map (·.id)) :
    (t.addSpec name matrix).shard identity =
      { t.shard identity with
        specs := t.shardSpecs identity ++ [⟨t.freshId, name, matrix, none⟩] } := by
  have hspecs : (t.addSpec name matrix).shardSpecs identity =
      t.shardSpecs identity ++ [⟨t.freshId, name, matrix, none⟩] :=
    filter_concat_of_pos (decide_eq_true hown)
  -- no test stands under a spec that was not there
  have htests : (t.addSpec name matrix).shardTests identity = t.shardTests identity := by
    refine List.filter_congr fun r hr => decide_eq_decide.mpr ?_
    rw [hspecs]
    exact mem_map_concat_iff (ht.ne_freshId (mem_ids_of_spec (ht.test_spec r hr).1))
  rw [shard, hspecs, htests]
  rfl

/-- A summary changes the one spec of a shard that it is for, if any. -/
theorem shardSpecs_setSummary (spec : SpecId) (summary : SpecSummary) :
    (t.setSummary spec summary).shardSpecs identity =
      (t.shardSpecs identity).map (SpecRow.summarize spec summary) := by
  show (t.specs.map (SpecRow.summarize spec summary)).filter _ = (t.specs.filter _).map _
  rw [List.filter_map]
  refine congrArg _ (List.filter_congr fun r _ => decide_eq_decide.mpr ?_)
  rw [SpecRow.matrixId_summarize]
  rfl

theorem shardSpecs_ids_setSummary (spec : SpecId) (summary : SpecSummary) :
    ((t.setSummary spec summary).shardSpecs identity).map (·.id) =
      (t.shardSpecs identity).map (·.id) := by
  rw [shardSpecs_setSummary, List.map_map]
  exact List.map_congr_left fun r _ => r.id_summarize spec summary

theorem shard_setSummary (spec : SpecId) (summary : SpecSummary) :
    (t.setSummary spec summary).shard identity =
      { t.shard identity with
        specs := (t.shardSpecs identity).map (SpecRow.summarize spec summary) } := by
  have htests : (t.setSummary spec summary).shardTests identity = t.shardTests identity :=
    shardTests_congr (shardSpecs_ids_setSummary spec summary) rfl
  rw [shard, shardSpecs_setSummary, htests]
  rfl

theorem shard_setSummary_other {spec : SpecId} (hother : spec ∉ (t.shardSpecs identity).map (·.id))
    (summary : SpecSummary) : (t.setSummary spec summary).shard identity = t.shard identity := by
  have hsame : (t.shardSpecs identity).map (SpecRow.summarize spec summary) =
      t.shardSpecs identity := by
    rw [List.map_congr_left (g := id), List.map_id]
    intro r hr
    rw [SpecRow.summarize, if_neg]
    · rfl
    · rintro rfl
      exact hother (List.mem_map_of_mem hr)
  rw [shard_setSummary, hsame]
  rfl

/-! ## Tests are made -/

theorem shard_addTests_other {spec : SpecId} (hother : spec ∉ (t.shardSpecs identity).map (·.id))
    (tests : List TestResult) : (t.addTests spec tests).shard identity = t.shard identity := by
  have hnew : (testRows spec (t.lastId + 1) tests).filter
      (fun r => r.values.specId ∈ (t.shardSpecs identity).map (·.id)) = [] := by
    refine List.filter_eq_nil_iff.mpr fun row hrow => ?_
    rw [specId_of_mem_testRows hrow, decide_eq_true_iff]
    exact hother
  have htests : (t.addTests spec tests).shardTests identity = t.shardTests identity :=
    (List.filter_append ..).trans (hnew ▸ List.append_nil _)
  rw [shard, htests]
  rfl

/-- Tests of a shard's spec come last among its tests. -/
theorem shard_addTests_own {spec : SpecId} (hown : spec ∈ (t.shardSpecs identity).map (·.id))
    (tests : List TestResult) :
    (t.addTests spec tests).shard identity =
      { t.shard identity with
        tests := t.shardTests identity ++ testRows spec (t.lastId + 1) tests } := by
  have hnew : (testRows spec (t.lastId + 1) tests).filter
      (fun r => r.values.specId ∈ (t.shardSpecs identity).map (·.id)) =
        testRows spec (t.lastId + 1) tests := by
    refine List.filter_eq_self.mpr fun row hrow => ?_
    rw [specId_of_mem_testRows hrow]
    exact decide_eq_true hown
  have htests : (t.addTests spec tests).shardTests identity =
      t.shardTests identity ++ testRows spec (t.lastId + 1) tests :=
    (List.filter_append ..).trans (congrArg (t.shardTests identity ++ ·) hnew)
  rw [shard, htests]
  rfl

end Tables

/-! ## What a recorder remembers -/

namespace RunState.Mirrors

variable {identity other : Identity} {t : Tables} {r : RunState}

/-- The shard that a recorder remembers is its own, and that of no other key. -/
theorem matrix_mem_shard_iff (h : r.Mirrors identity t) (ht : t.WellFormed) {m : MatrixId}
    (hm : r.matrixId = some m) :
    m ∈ (t.shardMatrices other).map (·.id) ↔ other.shardKey = identity.shardKey := by
  obtain ⟨a, row, ha, hrow, hkey⟩ := h.matrix m hm
  obtain ⟨attempt, hattempt, hattempt_key⟩ := h.attempt a ha
  obtain ⟨hmem, rfl⟩ := ht.matrix?_eq_some_iff.mp hrow
  rw [← Tables.isShardOf_iff hattempt hattempt_key hkey]
  constructor
  · intro hshard
    obtain ⟨found, hfound, hid⟩ := List.mem_map.mp hshard
    obtain ⟨hfound, hown⟩ := List.mem_filter.mp hfound
    rwa [ht.matrix_eq_of_id hfound hmem hid] at hown
  · exact fun hown => List.mem_map_of_mem (List.mem_filter.mpr ⟨hmem, hown⟩)

/-- The spec that a recorder remembers is its own, and that of no other key. -/
theorem spec_mem_shard_iff (h : r.Mirrors identity t) (ht : t.WellFormed) {c : CurrentSpec}
    (hc : r.spec = some c) :
    c.id ∈ (t.shardSpecs other).map (·.id) ↔ other.shardKey = identity.shardKey := by
  obtain ⟨m, row, hm, hrow, -, hmatrix⟩ := h.spec c hc
  obtain ⟨hmem, hid⟩ := ht.spec?_eq_some_iff.mp hrow
  rw [← h.matrix_mem_shard_iff ht hm, ← hid, ← hmatrix]
  constructor
  · intro hshard
    obtain ⟨found, hfound, hid⟩ := List.mem_map.mp hshard
    obtain ⟨hfound, hown⟩ := List.mem_filter.mp hfound
    rw [ht.spec_eq_of_id hfound hmem hid] at hown
    exact of_decide_eq_true hown
  · exact fun hown => List.mem_map_of_mem (List.mem_filter.mpr ⟨hmem, decide_eq_true hown⟩)

end RunState.Mirrors

end RunJournal
