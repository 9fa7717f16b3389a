import Mathlib.Data.Int.SuccPred
import Mathlib.Data.Int.ConditionallyCompleteOrder
import RunJournal.Proofs.Session.Shard

/-!
# Renaming of identifiers

Two stores that are asked for the same rows give them other identifiers, because each counts all the
rows that it makes. A renaming of identifiers takes the rows of the one to those of the other. It is
a function on all numbers, which is used up to the identifier that was given last; `renumber`
changes what it does beyond, so that it takes the rows that one store is about to make to those that
the other is about to make.
-/

namespace RunJournal

variable (ρ : Int → Int)

def RowId.rename {table : Table} (id : RowId table) : RowId table := ⟨ρ id.value⟩

def MatrixRow.rename (r : MatrixRow) : MatrixRow :=
  ⟨r.id.rename ρ, { r.values with attemptId := r.values.attemptId.rename ρ }⟩

def SpecRow.rename (r : SpecRow) : SpecRow :=
  { r with id := r.id.rename ρ, matrixId := r.matrixId.rename ρ }

def TestRow.rename (r : TestRow) : TestRow :=
  ⟨r.id.rename ρ, { r.values with specId := r.values.specId.rename ρ }⟩

/-- Rows with other identifiers and otherwise the same, in the same order. -/
def ShardRows.rename (rows : ShardRows) : ShardRows :=
  ⟨rows.matrices.map (·.rename ρ), rows.specs.map (·.rename ρ), rows.tests.map (·.rename ρ)⟩

/-- What a recorder remembers, with other identifiers. -/
def RunState.rename (r : RunState) : RunState :=
  { r with
    attemptId := r.attemptId.map (·.rename ρ)
    matrixId := r.matrixId.map (·.rename ρ)
    spec := r.spec.map fun c => { c with id := c.id.rename ρ } }

/-- The renaming `ρ` up to `a`; what comes after `a` is numbered on from `b`. -/
def renumber (a b : Int) : Int → Int := fun k => if k ≤ a then ρ k else b + (k - a)

/-! ## Numbers -/

variable {ρ} {a b : Int}

theorem strictMono_renumber (h : StrictMono ρ) (hab : ρ a ≤ b) : StrictMono (renumber ρ a b) := by
  intro i j hij
  simp only [renumber]
  split
  · rename_i hi
    split
    · exact h hij
    · -- the two numbers stand on different sides of `a`
      have hle : ρ i ≤ ρ a := h.monotone hi
      omega
  · rw [if_neg (by omega)]
    omega

theorem renumber_of_le {k : Int} (hk : k ≤ a) : renumber ρ a b k = ρ k := if_pos hk

theorem renumber_add {m n : Nat} (k : Nat) :
    renumber ρ m n (m + 1 + k : Nat) = (n + 1 + k : Nat) := by
  rw [renumber, if_neg (by omega)]
  omega

/-! ## Rows -/

theorem RowId.rename_injective (h : StrictMono ρ) {table : Table} :
    Function.Injective (RowId.rename ρ : RowId table → RowId table) := by
  rintro ⟨i⟩ ⟨j⟩ hij
  exact congrArg RowId.mk (h.injective (congrArg RowId.value hij))

theorem SpecRow.rename_summarize (h : StrictMono ρ) (spec : SpecId) (summary : SpecSummary)
    (r : SpecRow) :
    (r.summarize spec summary).rename ρ = (r.rename ρ).summarize (spec.rename ρ) summary := by
  have hiff : (r.rename ρ).id = spec.rename ρ ↔ r.id = spec := (RowId.rename_injective h).eq_iff
  rw [summarize, summarize]
  by_cases hid : r.id = spec
  · rw [if_pos hid, if_pos (hiff.mpr hid)]
    rfl
  · rw [if_neg hid, if_neg (hiff.not.mpr hid)]

/-- Tests that two stores make for one spec differ in their identifiers only. -/
theorem testRows_rename (spec : SpecId) (tests : List TestResult) {m n : Nat}
    (h : ∀ k : Nat, ρ (m + k : Nat) = (n + k : Nat)) :
    (Tables.testRows spec m tests).map (·.rename ρ) =
      Tables.testRows (spec.rename ρ) n tests := by
  induction tests generalizing m n with
  | nil => rfl
  | cons test rest ih =>
    rw [Tables.testRows, Tables.testRows, List.map_cons, ih (m := m + 1) (n := n + 1)]
    · have hid : ρ (m : Nat) = (n : Nat) := h 0
      rw [TestRow.rename, RowId.rename, hid]
      rfl
    · intro k
      have hnext := h (k + 1)
      rwa [← Nat.add_assoc, ← Nat.add_assoc, Nat.add_right_comm m, Nat.add_right_comm n] at hnext

/-! ## Identifiers that were given -/

/-- All rows of the tables. -/
def Tables.rows (t : Tables) : ShardRows := ⟨t.matrices, t.specs, t.tests⟩

variable {ρ' : Int → Int} {t : Tables}

/-- It does not matter where a renaming takes identifiers that are still to be given. -/
theorem Tables.WellFormed.rename_congr (h : t.WellFormed)
    (hρ : ∀ k ≤ (t.lastId : Int), ρ k = ρ' k) {table : Table} {id : RowId table}
    (hid : id.value ∈ t.ids) : id.rename ρ = id.rename ρ' :=
  congrArg RowId.mk (hρ _ ((h.mem_ids _).mp hid).2)

/-- The rows of tables hold only identifiers that were given. -/
theorem Tables.WellFormed.rows_rename_congr (h : t.WellFormed)
    (hρ : ∀ k ≤ (t.lastId : Int), ρ k = ρ' k) : t.rows.rename ρ = t.rows.rename ρ' := by
  rw [ShardRows.rename, ShardRows.rename]
  congr 1
  · refine List.map_congr_left fun r hr => ?_
    have hid := h.rename_congr hρ (matrices_subset_ids (List.mem_map_of_mem hr))
    have hattempt := h.rename_congr hρ (mem_ids_of_attempt (h.matrix_attempt r hr).1)
    rw [MatrixRow.rename, MatrixRow.rename, hid, hattempt]
  · refine List.map_congr_left fun r hr => ?_
    have hid := h.rename_congr hρ (specs_subset_ids (List.mem_map_of_mem hr))
    have hmatrix := h.rename_congr hρ (mem_ids_of_matrix (h.spec_matrix r hr).1)
    rw [SpecRow.rename, SpecRow.rename, hid, hmatrix]
  · refine List.map_congr_left fun r hr => ?_
    have hid := h.rename_congr hρ (tests_subset_ids (List.mem_map_of_mem hr))
    have hspec := h.rename_congr hρ (mem_ids_of_spec (h.test_spec r hr).1)
    rw [TestRow.rename, TestRow.rename, hid, hspec]

/-- A recorder remembers only identifiers that were given. -/
theorem RunState.Mirrors.rename_congr {identity : Identity} {r : RunState}
    (h : r.Mirrors identity t) (ht : t.WellFormed) (hρ : ∀ k ≤ (t.lastId : Int), ρ k = ρ' k) :
    r.rename ρ = r.rename ρ' := by
  rw [RunState.rename, RunState.rename]
  congr 1
  · refine Option.map_congr fun a ha => ?_
    obtain ⟨row, hrow, -⟩ := h.attempt a ha
    exact ht.rename_congr hρ (ht.mem_ids_of_attempt? hrow)
  · refine Option.map_congr fun m hm => ?_
    obtain ⟨a, row, -, hrow, -⟩ := h.matrix m hm
    exact ht.rename_congr hρ (ht.mem_ids_of_matrix? hrow)
  · refine Option.map_congr fun c hc => ?_
    obtain ⟨m, row, -, hrow, -⟩ := h.spec c hc
    rw [ht.rename_congr hρ (ht.mem_ids_of_spec? hrow)]

end RunJournal
