import RunJournal.Recorder.Hooks

/-!
# Stores behind a view

A store may keep more than its answers depend on: a log of its calls, or how many there were. What
its answers do depend on is then a view of its state, and the view is the state of a smaller store
that gives the same answers (`Store.AnswersAs`). A recorder does not notice which of the two it has:
what an event does with one is what it does with the other, seen through the view
(`recordEvent_through`).
-/

namespace RunJournal

variable {σ τ : Type} {store : Store σ} {base : Store τ} {view : σ → τ}

/-- A store answers as another one does that has only a view of its state. -/
def Store.AnswersAs (store : Store σ) (base : Store τ) (view : σ → τ) : Prop := ∀ q s,
  base q (view s) = ((store q s).1, view (store q s).2)

/-- A report with a view of the store in place of the store. -/
def HookReport.through (view : σ → τ) (report : HookReport σ) : HookReport τ :=
  ⟨report.outcome, report.state, view report.store, report.uploads, report.notices⟩

namespace Store.AnswersAs

variable (h : store.AnswersAs base view)
include h

theorem recordTests (results : SpecResults) (spec : SpecId) (tests : List TestResult) (s : σ) :
    recordTests base results spec tests (view s) =
      ((recordTests store results spec tests s).1, (recordTests store results spec tests s).2.1,
        view (recordTests store results spec tests s).2.2) := by
  induction tests generalizing s with
  | nil => rfl
  | cons test rest ih =>
    rw [RunJournal.recordTests, RunJournal.recordTests, h]
    rcases store (.insertTest (test.row spec)) s with ⟨answer, s₁⟩
    cases answer with
    | error cause => rfl
    | ok id => simp only [ih s₁]

theorem perform (q : Request) (s : σ) :
    perform base q (view s) = ((perform store q s).1, view (perform store q s).2) := by
  rw [RunJournal.perform, RunJournal.perform, h]
  rcases store q s with ⟨answer, s₁⟩
  cases answer <;> rfl

theorem performOn {α : Type} (id : Option α) (missing : HookError) (q : α → Request) (s : σ) :
    performOn base id missing q (view s) =
      ((performOn store id missing q s).1, view (performOn store id missing q s).2) := by
  cases id with
  | none => rfl
  | some a => exact h.perform (q a) s

end Store.AnswersAs

/-- **A recorder sees no more of its store than the answers.** -/
theorem recordEvent_through (h : store.AnswersAs base view) (identity : Identity) (now : Timestamp)
    (e : Event) (r : RunState) (s : σ) :
    recordEvent base identity now e r (view s) =
      (recordEvent store identity now e r s).through view := by
  -- one store answers as the other in each call, so both reports take the same branches
  cases e with
  | beforeRun browser =>
    simp only [recordEvent, beforeRun, h (.upsertAttempt _) s]
    rcases store (.upsertAttempt (identity.attemptRow browser)) s with ⟨answer, s₁⟩
    cases answer with
    | error cause => rfl
    | ok attempt =>
      simp only [h (.upsertMatrix _) s₁]
      rcases store (.upsertMatrix (identity.matrixRow attempt)) s₁ with ⟨answer, s₂⟩
      cases answer <;> rfl
  | beforeSpec name =>
    simp only [recordEvent, beforeSpec]
    cases r.matrixId with
    | none => rfl
    | some matrix =>
      simp only [h (.insertSpec _ _) s]
      rcases store (.insertSpec name matrix) s with ⟨answer, s₁⟩
      cases answer <;> rfl
  | afterSpec name results =>
    simp only [recordEvent, afterSpec]
    cases r.spec with
    | none => rfl
    | some current =>
      simp only [h (.completeSpec _ _) s]
      rcases store (.completeSpec current.id (.ofStats results.stats)) s with ⟨answer, s₁⟩
      cases answer with
      | error cause => rfl
      | ok answer =>
        simp only [h.recordTests]
        rfl
  | afterRun details =>
    simp only [recordEvent, afterRun, h.performOn, h.perform]
    rfl

end RunJournal
