import RunJournal.Proofs.Recorder.Calls
import RunJournal.Proofs.Recorder.Effect

/-!
# What requests do to tables in memory

Everything that the store in memory can do in answer to one request. A request that fails leaves the
tables as they are, whatever the cause; `Tables.Served` lists what a request does that succeeds, one
constructor for each way, with what the tables must have held for it. `Tables.store_cases` says that
there is nothing else, and every invariant of the tables is a case analysis over it.

Handles of one store share its tables and keep nothing for themselves. Whatever is asked through any
of them is therefore one sequence of requests: `Tables.serveAll` are the tables after it, and
`Tables.callsOf` what each request was answered with.
-/

namespace RunJournal

/-- What an attempt is found by. -/
def NewAttempt.key (row : NewAttempt) : Int × Int := (row.workflowId, row.attempt)

/-- What a shard is found by. -/
def NewMatrix.key (row : NewMatrix) : String × AttemptId := (row.matrixId, row.attemptId)

/-- What an attempt holds for good: all but its end. -/
def AttemptRow.lasting (r : AttemptRow) : AttemptId × NewAttempt := (r.id, r.values)

/-- What a shard holds for good: all but its status. -/
def MatrixRow.lasting (r : MatrixRow) : MatrixId × NewMatrix :=
  (r.id, { r.values with status := .started })

/-- What a spec holds for good: all but its summary. -/
def SpecRow.lasting (r : SpecRow) : SpecId × String × MatrixId := (r.id, r.name, r.matrixId)

namespace Tables

/-- The tables with one more attempt. -/
def addAttempt (row : NewAttempt) (t : Tables) : Tables :=
  { t with attempts := t.attempts ++ [⟨t.freshId, row, none⟩], lastId := t.lastId + 1 }

/-- The tables with one more shard. -/
def addMatrix (row : NewMatrix) (t : Tables) : Tables :=
  { t with matrices := t.matrices ++ [⟨t.freshId, row⟩], lastId := t.lastId + 1 }

/-- The tables with one more test. -/
def addTest (row : NewTest) (t : Tables) : Tables :=
  { t with tests := t.tests ++ [⟨t.freshId, row⟩], lastId := t.lastId + 1 }

/-- What a request that succeeds is answered with, and the tables that it leaves behind. -/
inductive Served (t : Tables) : (q : Request) → q.Answer → Tables → Prop where
  | attemptFound {row : NewAttempt} {r : AttemptRow} (hmem : r ∈ t.attempts)
      (hkey : r.values.key = row.key) : Served t (.upsertAttempt row) r.id t
  | attemptMade {row : NewAttempt} (hnew : ∀ r ∈ t.attempts, r.values.key ≠ row.key) :
      Served t (.upsertAttempt row) t.freshId (t.addAttempt row)
  | matrixFound {row : NewMatrix} {r : MatrixRow} (hmem : r ∈ t.matrices)
      (hkey : r.values.key = row.key) : Served t (.upsertMatrix row) r.id t
  | matrixMade {row : NewMatrix} (hnew : ∀ r ∈ t.matrices, r.values.key ≠ row.key)
      (hattempt : t.hasAttempt row.attemptId = true) :
      Served t (.upsertMatrix row) t.freshId (t.addMatrix row)
  | specMade {name : String} {matrix : MatrixId} (hmatrix : t.hasMatrix matrix = true) :
      Served t (.insertSpec name matrix) t.freshId (t.addSpec name matrix)
  | specCompleted {spec : SpecId} {summary : SpecSummary} (hspec : t.hasSpec spec = true) :
      Served t (.completeSpec spec summary) () (t.setSummary spec summary)
  | testMade {row : NewTest} (hspec : t.hasSpec row.specId = true) :
      Served t (.insertTest row) t.freshId (t.addTest row)
  | matrixFinished {matrix : MatrixId} (hmatrix : t.hasMatrix matrix = true) :
      Served t (.finishMatrix matrix) () (t.markDone matrix)
  | attemptFinished {attempt : AttemptId} {endTime : Timestamp}
      (hattempt : t.hasAttempt attempt = true) :
      Served t (.finishAttempt attempt endTime) () (t.setEndTime attempt endTime)
  | closed : Served t .close () t.shut

/-! ## One request -/

variable {t : Tables}

theorem findAttempt_eq_some {row : NewAttempt} {r : AttemptRow} (h : t.findAttempt row = some r) :
    r ∈ t.attempts ∧ r.values.key = row.key := by
  have hkey := List.find?_some h
  simp only [Bool.and_eq_true, beq_iff_eq] at hkey
  exact ⟨List.mem_of_find?_eq_some h, Prod.ext hkey.1 hkey.2⟩

theorem findAttempt_eq_none {row : NewAttempt} (h : t.findAttempt row = none) :
    ∀ r ∈ t.attempts, r.values.key ≠ row.key := by
  intro r hr hkey
  have hne := List.find?_eq_none.mp h r hr
  simp only [NewAttempt.key, Prod.mk.injEq] at hkey
  simp [hkey.1, hkey.2] at hne

theorem findMatrix_eq_some {row : NewMatrix} {r : MatrixRow} (h : t.findMatrix row = some r) :
    r ∈ t.matrices ∧ r.values.key = row.key := by
  have hkey := List.find?_some h
  simp only [Bool.and_eq_true, beq_iff_eq] at hkey
  exact ⟨List.mem_of_find?_eq_some h, Prod.ext hkey.1 hkey.2⟩

theorem findMatrix_eq_none {row : NewMatrix} (h : t.findMatrix row = none) :
    ∀ r ∈ t.matrices, r.values.key ≠ row.key := by
  intro r hr hkey
  have hne := List.find?_eq_none.mp h r hr
  simp only [NewMatrix.key, Prod.mk.injEq] at hkey
  simp [hkey.1, hkey.2] at hne

/-- Open tables fail a request and stay as they are, or serve it. -/
theorem serve_cases (q : Request) (t : Tables) :
    (∃ cause, serve q t = (.error cause, t)) ∨
      ∃ answer t', serve q t = (.ok answer, t') ∧ Served t q answer t' := by
  -- by request, and each by its own test: a row with the key, or the row that is referred to
  cases q with
  | upsertAttempt row =>
    simp only [serve, upsertAttempt]
    cases hfind : t.findAttempt row with
    | some r =>
      obtain ⟨hmem, hkey⟩ := findAttempt_eq_some hfind
      exact .inr ⟨_, _, rfl, .attemptFound hmem hkey⟩
    | none => exact .inr ⟨_, _, rfl, .attemptMade (findAttempt_eq_none hfind)⟩
  | upsertMatrix row =>
    simp only [serve, upsertMatrix]
    cases hfind : t.findMatrix row with
    | some r =>
      obtain ⟨hmem, hkey⟩ := findMatrix_eq_some hfind
      exact .inr ⟨_, _, rfl, .matrixFound hmem hkey⟩
    | none =>
      by_cases hattempt : t.hasAttempt row.attemptId = true
      · simp only [hattempt, if_true]
        exact .inr ⟨_, _, rfl, .matrixMade (findMatrix_eq_none hfind) hattempt⟩
      · simp only [hattempt]
        exact .inl ⟨_, rfl⟩
  | insertSpec name matrix =>
    simp only [serve, insertSpec]
    split
    · rename_i hmatrix
      exact .inr ⟨_, _, rfl, .specMade hmatrix⟩
    · exact .inl ⟨_, rfl⟩
  | completeSpec spec summary =>
    simp only [serve, completeSpec]
    split
    · rename_i hspec
      exact .inr ⟨_, _, rfl, .specCompleted hspec⟩
    · exact .inl ⟨_, rfl⟩
  | insertTest row =>
    simp only [serve, insertTest]
    split
    · rename_i hspec
      exact .inr ⟨_, _, rfl, .testMade hspec⟩
    · exact .inl ⟨_, rfl⟩
  | finishMatrix matrix =>
    simp only [serve, finishMatrix]
    split
    · rename_i hmatrix
      exact .inr ⟨_, _, rfl, .matrixFinished hmatrix⟩
    · exact .inl ⟨_, rfl⟩
  | finishAttempt attempt endTime =>
    simp only [serve, finishAttempt]
    split
    · rename_i hattempt
      exact .inr ⟨_, _, rfl, .attemptFinished hattempt⟩
    · exact .inl ⟨_, rfl⟩
  | close => exact .inr ⟨_, _, rfl, .closed⟩

/-- **A request fails and changes nothing, or it is served**, and only by tables that are open. -/
theorem store_cases (q : Request) (t : Tables) :
    (∃ cause, store q t = (.error cause, t)) ∨
      ∃ answer t', store q t = (.ok answer, t') ∧ t.closed = false ∧ Served t q answer t' := by
  cases hclosed : t.closed with
  | true =>
    rw [store, if_pos hclosed]
    exact .inl ⟨_, rfl⟩
  | false =>
    rw [store_open hclosed]
    rcases serve_cases q t with hfail | ⟨answer, t', hanswer, hserved⟩
    · exact .inl hfail
    · exact .inr ⟨answer, t', hanswer, rfl, hserved⟩

/-- An answer that is no error is that of a request that was served. -/
theorem served_of_store {q : Request} {answer : q.Answer} {t' : Tables}
    (h : store q t = (.ok answer, t')) : Served t q answer t' := by
  rcases store_cases q t with ⟨cause, hfail⟩ | ⟨answer', t'', hanswer, -, hserved⟩
  · rw [hfail] at h
    cases h
  · rw [hanswer] at h
    cases h
    exact hserved

/-- Only tables that are open give an answer that is no error. -/
theorem open_of_store {q : Request} {answer : q.Answer} {t' : Tables}
    (h : store q t = (.ok answer, t')) : t.closed = false := by
  cases hclosed : t.closed with
  | false => rfl
  | true =>
    rw [store_closed hclosed] at h
    cases h

/-! ## Sequences of requests -/

/-- The tables after requests. -/
def serveAll (requests : List Request) (t : Tables) : Tables :=
  requests.foldl (fun t q => (store q t).2) t

/-- The requests with their answers. -/
def callsOf : List Request → Tables → List Call
  | [], _ => []
  | q :: rest, t => ⟨q, (store q t).1⟩ :: callsOf rest (store q t).2

theorem serveAll_append (xs ys : List Request) (t : Tables) :
    t.serveAll (xs ++ ys) = (t.serveAll xs).serveAll ys := List.foldl_append

/-- What one request keeps is kept by any sequence of them. -/
theorem serveAll_induction {motive : Tables → Prop} (requests : List Request) (h : motive t)
    (hserved : ∀ {t : Tables} {q : Request} {answer : q.Answer} {t' : Tables},
      motive t → Served t q answer t' → motive t') : motive (t.serveAll requests) := by
  induction requests generalizing t with
  | nil => exact h
  | cons q rest ih =>
    refine ih (?_ : motive (store q t).2)
    rcases store_cases q t with ⟨cause, hfail⟩ | ⟨answer, t', hanswer, -, hstep⟩
    · rw [hfail]
      exact h
    · rw [hanswer]
      exact hserved h hstep

/-- What one request keeps of the calls made so far and the tables is kept by any sequence. -/
theorem callsOf_induction {motive : List Call → Tables → Prop} (requests : List Request)
    {calls : List Call} (h : motive calls t)
    (hfailed : ∀ {calls : List Call} {t : Tables} (q : Request) (cause : StoreError),
      motive calls t → motive (calls ++ [⟨q, .error cause⟩]) t)
    (hserved : ∀ {calls : List Call} {t : Tables} {q : Request} {answer : q.Answer} {t' : Tables},
      motive calls t → Served t q answer t' → motive (calls ++ [⟨q, .ok answer⟩]) t') :
    motive (calls ++ callsOf requests t) (t.serveAll requests) := by
  -- the calls made so far move to the front one by one, so they are general in the induction
  induction requests generalizing calls t with
  | nil =>
    rw [callsOf, List.append_nil]
    exact h
  | cons q rest ih =>
    rw [callsOf, List.append_cons]
    show motive _ ((store q t).2.serveAll rest)
    rcases store_cases q t with ⟨cause, hfail⟩ | ⟨answer, t', hanswer, -, hstep⟩
    · rw [hfail]
      exact ih (hfailed q cause h)
    · rw [hanswer]
      exact ih (hserved h hstep)

end Tables

end RunJournal
