import Mathlib.Logic.Equiv.Basic
import RunJournal.Proofs.Recorder.Artifacts

/-!
# Other names for the rows

Two stores that are asked for the same rows give them other identifiers. A `Naming` takes the
identifiers of the one to those of the other, table by table. It is injective, so that whatever is
told apart by identifiers in the one store is told apart in the other.

A row that both stores make gets its name by `Naming.assign`, which changes a naming for this row
only, as far as identifiers are concerned that have been given.

Uploads hold identifiers in the text of their keys, so it is the artifacts that get other names, not
the uploads.
-/

namespace RunJournal

/-- What becomes of the identifiers of each table. -/
structure Naming where
  rename : Table → Int → Int
  injective : ∀ table, Function.Injective (rename table)

/-! ## Things under other names -/

section
variable (ν : Naming)

def RowId.under {table : Table} (id : RowId table) : RowId table := ⟨ν.rename table id.value⟩

def NewMatrix.under (row : NewMatrix) : NewMatrix := { row with attemptId := row.attemptId.under ν }

def NewTest.under (row : NewTest) : NewTest := { row with specId := row.specId.under ν }

def AttemptRow.under (r : AttemptRow) : AttemptRow := { r with id := r.id.under ν }

def MatrixRow.under (r : MatrixRow) : MatrixRow := ⟨r.id.under ν, r.values.under ν⟩

def SpecRow.under (r : SpecRow) : SpecRow :=
  { r with id := r.id.under ν, matrixId := r.matrixId.under ν }

def TestRow.under (r : TestRow) : TestRow := ⟨r.id.under ν, r.values.under ν⟩

/-- What a recorder remembers, under other names. -/
def RunState.under (r : RunState) : RunState :=
  { r with
    attemptId := r.attemptId.map (·.under ν)
    matrixId := r.matrixId.map (·.under ν)
    spec := r.spec.map fun c => { c with id := c.id.under ν } }

/-- A request under other names. The time that it sets, if it sets one, is of no account. -/
def Request.under (now : Timestamp) : Request → Request
  | .upsertAttempt row => .upsertAttempt row
  | .upsertMatrix row => .upsertMatrix (row.under ν)
  | .insertSpec name matrix => .insertSpec name (matrix.under ν)
  | .completeSpec spec summary => .completeSpec (spec.under ν) summary
  | .insertTest row => .insertTest (row.under ν)
  | .finishMatrix matrix => .finishMatrix (matrix.under ν)
  | .finishAttempt attempt _ => .finishAttempt (attempt.under ν) now
  | .close => .close

end

/-- The answer to a request, under names that may be other ones than those of the request. -/
def Request.answerUnder (ν : Naming) (now : Timestamp) (ν' : Naming) :
    (q : Request) → q.Answer → (q.under ν now).Answer
  | .upsertAttempt _, id => id.under ν'
  | .upsertMatrix _, id => id.under ν'
  | .insertSpec _ _, id => id.under ν'
  | .completeSpec _ _, _ => ()
  | .insertTest _, id => id.under ν'
  | .finishMatrix _, _ => ()
  | .finishAttempt _ _, _ => ()
  | .close, _ => ()

variable {ν : Naming} {table : Table}

theorem RowId.under_injective (ν : Naming) :
    Function.Injective (RowId.under ν : RowId table → RowId table) := by
  rintro ⟨i⟩ ⟨j⟩ hij
  exact congrArg RowId.mk (ν.injective table (congrArg RowId.value hij))

@[simp] theorem RowId.under_inj {a b : RowId table} : a.under ν = b.under ν ↔ a = b :=
  (RowId.under_injective ν).eq_iff

/-! ## Names of new rows -/

namespace Naming

/-- The naming in which `id` becomes `name`. What became `name` before becomes what `id` became. -/
def assign (ν : Naming) (id name : RowId table) : Naming where
  rename := Function.update ν.rename table
    (Equiv.swap (ν.rename table id.value) name.value ∘ ν.rename table)
  injective other := by
    by_cases hother : other = table
    · subst hother
      rw [Function.update_self]
      exact (Equiv.injective _).comp (ν.injective other)
    · rw [Function.update_of_ne hother]
      exact ν.injective other

theorem rename_assign (ν : Naming) (id name : RowId table) :
    (ν.assign id name).rename = Function.update ν.rename table
      (Equiv.swap (ν.rename table id.value) name.value ∘ ν.rename table) := rfl

theorem under_assign_self (ν : Naming) (id name : RowId table) :
    id.under (ν.assign id name) = name := by
  rw [RowId.under, rename_assign, Function.update_self, Function.comp_apply, Equiv.swap_apply_left]

/-- Another row of the table keeps its name, if the name was not that of a row before. -/
theorem rename_assign_of_ne {id name : RowId table} {i : Int} (hid : i ≠ id.value)
    (hname : ν.rename table i ≠ name.value) :
    (ν.assign id name).rename table i = ν.rename table i := by
  have hne : ν.rename table i ≠ ν.rename table id.value := (ν.injective table).ne hid
  rw [rename_assign, Function.update_self, Function.comp_apply,
    Equiv.swap_apply_of_ne_of_ne hne hname]

/-- The rows of other tables keep their names. -/
theorem rename_assign_of_table_ne {other : Table} (h : other ≠ table) (ν : Naming)
    (id name : RowId table) (i : Int) :
    (ν.assign id name).rename other i = ν.rename other i := by
  rw [rename_assign, Function.update_of_ne h]

end Naming

/-! ## Artifacts -/

/-- An artifact of rows under other names. -/
def Artifact.under (ν : Naming) : Artifact → Artifact
  | .screenshot path test spec attemptIndex =>
    .screenshot path (test.under ν) (spec.under ν) attemptIndex
  | .video path spec => .video path (spec.under ν)

namespace SpecResults

theorem screenshotArtifacts_under (results : SpecResults) (t : TestResult) (test : TestId)
    (spec : SpecId) :
    results.screenshotArtifacts t (test.under ν) (spec.under ν) =
      (results.screenshotArtifacts t test spec).map (·.under ν) := by
  rw [screenshotArtifacts, screenshotArtifacts]
  split
  · rw [List.map_map]
    rfl
  · rfl

theorem videoArtifacts_under (results : SpecResults) (spec : SpecId) :
    results.videoArtifacts (spec.under ν) = (results.videoArtifacts spec).map (·.under ν) := by
  rw [videoArtifacts, videoArtifacts]
  cases results.video with
  | none => rfl
  | some path =>
    simp only
    split <;> rfl

end SpecResults

end RunJournal
