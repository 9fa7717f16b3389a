import RunJournal.Proofs.Database.Copies
import RunJournal.Proofs.Store.WellFormed

/-!
# When the store in memory fails

A request refers to at most one row that has to be there before it (`Request.reference?`). A store
that was closed fails every request in the same way. One that is open fails a request exactly if the
row is not there, and names it; and whatever the cause, a request that fails changes nothing, not
even the counter that identifiers are drawn from (`store_fails_exactly`).

One request needs more than a look at the code: a shard that is found is answered before its attempt
is looked for. That its attempt is there is what well-formed tables say of every shard.
-/

namespace RunJournal

/-- The row that a request refers to: its table and its identifier. -/
def Request.reference? : Request → Option (Table × Int)
  | .upsertAttempt _ => none
  | .upsertMatrix row => some (.attempt, row.attemptId.value)
  | .insertSpec _ matrix => some (.matrix, matrix.value)
  | .completeSpec spec _ => some (.specs, spec.value)
  | .insertTest row => some (.specs, row.specId.value)
  | .finishMatrix matrix => some (.matrix, matrix.value)
  | .finishAttempt attempt _ => some (.attempt, attempt.value)
  | .close => none

namespace Tables

variable {t : Tables} {q : Request} {cause : StoreError}

/-- The tables lack the row that a request refers to, and `cause` says so. -/
def Lacks (t : Tables) (q : Request) (cause : StoreError) : Prop :=
  ∃ table id, q.reference? = some (table, id) ∧ id ∉ t.idsOf table ∧ cause = .notFound table id

theorem lacks_iff {table : Table} (id : RowId table) (hq : q.reference? = some (table, id.value)) :
    t.Lacks q cause ↔ ¬ t.Has id ∧ cause = .notFound table id.value := by
  constructor
  · rintro ⟨table', id', href, hid, hcause⟩
    rw [hq] at href
    obtain ⟨rfl, rfl⟩ := Prod.mk.inj (Option.some.inj href)
    exact ⟨hid, hcause⟩
  · rintro ⟨hid, hcause⟩
    exact ⟨table, id.value, hq, hid, hcause⟩

theorem not_lacks_of_reference? (hq : q.reference? = none) : ¬ t.Lacks q cause := by
  rintro ⟨table, id, href, -, -⟩
  rw [hq] at href
  cases href

/-- What needs a row fails for want of it and for nothing else. -/
theorem ite_eq_error_iff {α : Type} {needed : Bool} {answer : α} {missing : StoreError}
    {t' : Tables} :
    (if needed then ((.ok answer : Except StoreError α), t') else (.error missing, t)).1 =
      .error cause ↔ ¬ needed = true ∧ cause = missing := by
  by_cases hneeded : needed = true
  · rw [if_pos hneeded]
    constructor
    · intro h
      cases h
    · rintro ⟨hnot, -⟩
      exact absurd hneeded hnot
  · rw [if_neg hneeded]
    constructor
    · intro h
      cases h
      exact ⟨hneeded, rfl⟩
    · rintro ⟨-, rfl⟩
      rfl

/-- Open tables fail a request for want of the row that it refers to, and for nothing else. -/
theorem WellFormed.serve_eq_error_iff (h : t.WellFormed) (q : Request) (cause : StoreError) :
    (serve q t).1 = .error cause ↔ t.Lacks q cause := by
  cases q with
  | upsertAttempt row =>
    refine iff_of_false ?_ (not_lacks_of_reference? rfl)
    simp only [serve, upsertAttempt]
    intro herror
    split at herror <;> cases herror
  | upsertMatrix row =>
    rw [lacks_iff row.attemptId rfl, has_attempt_iff]
    simp only [serve, upsertMatrix]
    cases hfind : t.findMatrix row with
    | some r =>
      -- the shard is answered, and its attempt is there because shards stand under attempts
      obtain ⟨hmem, hkey⟩ := findMatrix_eq_some hfind
      have hattempt : t.hasAttempt r.values.attemptId = true :=
        hasAttempt_iff.mpr (h.matrix_attempt r hmem).1
      have hsame : r.values.attemptId = row.attemptId := congrArg Prod.snd hkey
      rw [hsame] at hattempt
      refine iff_of_false ?_ fun hnot => hnot.1 hattempt
      intro herror
      cases herror
    | none => exact ite_eq_error_iff
  | insertSpec name matrix =>
    rw [lacks_iff matrix rfl, has_matrix_iff]
    exact ite_eq_error_iff
  | completeSpec spec summary =>
    rw [lacks_iff spec rfl, has_spec_iff]
    exact ite_eq_error_iff
  | insertTest row =>
    rw [lacks_iff row.specId rfl, has_spec_iff]
    exact ite_eq_error_iff
  | finishMatrix matrix =>
    rw [lacks_iff matrix rfl, has_matrix_iff]
    exact ite_eq_error_iff
  | finishAttempt attempt endTime =>
    rw [lacks_iff attempt rfl, has_attempt_iff]
    exact ite_eq_error_iff
  | close =>
    refine iff_of_false ?_ (not_lacks_of_reference? rfl)
    intro herror
    cases herror

/-- A request that fails leaves the tables as they are. -/
theorem store_snd_of_error (h : (store q t).1 = .error cause) : (store q t).2 = t := by
  rcases store_cases q t with ⟨cause', hfail⟩ | ⟨answer, t', hanswer, -, -⟩
  · rw [hfail]
  · rw [hanswer] at h
    cases h

/-- **The store in memory fails exactly when it must, and then changes nothing.** Whatever was asked
of it before, it fails a request as closed exactly if it was closed; as long as it is open, it fails
a request exactly if the row that the request refers to does not exist, with a cause that names this
row; and a request that fails leaves every row, the counter and the closing mark as they were. -/
theorem store_fails_exactly (requests : List Request) (q : Request) :
    let t := empty.serveAll requests
    ((store q t).1 = .error .closed ↔ t.closed = true) ∧
    (t.closed = false → ∀ cause, (store q t).1 = .error cause ↔
      ∃ table id, q.reference? = some (table, id) ∧ id ∉ t.idsOf table ∧
        cause = .notFound table id) ∧
    ∀ cause, (store q t).1 = .error cause → (store q t).2 = t := by
  intro t
  have hopen : t.closed = false → ∀ cause, (store q t).1 = .error cause ↔ t.Lacks q cause := by
    intro hclosed cause
    rw [store_open hclosed]
    exact (wellFormed_serveAll requests).serve_eq_error_iff q cause
  refine ⟨⟨fun h => ?_, fun h => by rw [store_closed h]⟩, hopen, fun cause => store_snd_of_error⟩
  -- no request to open tables fails as closed, since the causes there are missing rows
  cases hclosed : t.closed with
  | true => rfl
  | false =>
    obtain ⟨table, id, -, -, hcause⟩ := (hopen hclosed .closed).mp h
    cases hcause

/-- An attempt, which gets the identifier 1, and a shard of it. -/
def oneShard : List Request :=
  [.upsertAttempt ⟨7, 1, "chrome", "Linux", "acme/app", "dev", "push", "fix", "main"⟩,
    .upsertMatrix ⟨7, "shard-a", .started, ⟨1⟩⟩]

/-- No shard has the identifier of the attempt, and neither is a shard made in an attempt that there
is not; once the tables are closed this is no longer what is wrong. -/
theorem store_fails_exactly_oneShard :
    let t := empty.serveAll oneShard
    t.closed = false ∧
      (store (.finishMatrix ⟨1⟩) t).1 = .error (.notFound .matrix 1) ∧
      (store (.finishMatrix ⟨1⟩) t).2 = t ∧
      (store (.upsertMatrix ⟨7, "shard-a", .started, ⟨2⟩⟩) t).1 =
        .error (.notFound .attempt 2) ∧
      (store (.finishMatrix ⟨1⟩) (empty.serveAll (oneShard ++ [.close]))).1 = .error .closed := by
  intro t
  have hclosed : t.closed = false := by decide
  obtain ⟨-, hmatrix, hsame⟩ := store_fails_exactly oneShard (.finishMatrix ⟨1⟩)
  obtain ⟨-, hattempt, -⟩ :=
    store_fails_exactly oneShard (.upsertMatrix ⟨7, "shard-a", .started, ⟨2⟩⟩)
  obtain ⟨hafter, -, -⟩ := store_fails_exactly (oneShard ++ [.close]) (.finishMatrix ⟨1⟩)
  have hlacks : (store (.finishMatrix ⟨1⟩) t).1 = .error (.notFound .matrix 1) :=
    (hmatrix hclosed _).mpr ⟨.matrix, 1, rfl, by decide, rfl⟩
  exact ⟨hclosed, hlacks, hsame _ hlacks,
    (hattempt hclosed _).mpr ⟨.attempt, 2, rfl, by decide, rfl⟩, hafter.mpr (by decide)⟩

end Tables

end RunJournal
