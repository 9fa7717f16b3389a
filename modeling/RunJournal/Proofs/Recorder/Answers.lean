import RunJournal.Proofs.Database.Refused
import RunJournal.Proofs.Recorder.Provenance

/-!
# What a step is answered

Three facts about the calls of a step that hold for every store and every state of the recorder. The
calls are of the kinds that the event makes (`kind_event_of_mem_calls`), so that a call tells what
its step was for. Their answers are those that the store gives when it is asked for the same one
request after the other, and nothing else is done to the store (`stepOf_answered`). And without any
answer there is nothing to be had from an event: it fails, and uploads nothing
(`stepOf_of_no_answers`).
-/

namespace RunJournal

/-- Whether some request of a step was answered. -/
def Step.Answered (t : Step) : Prop :=
  ∃ (q : Request) (answer : q.Answer), (⟨q, .ok answer⟩ : Call) ∈ t.calls

variable {σ : Type} (store : Store σ) (identity : Identity)

/-- The calls of a step are of the kinds that its event makes. -/
theorem kind_event_of_mem_calls {now : Timestamp} {e : Event} {r : RunState} {s : σ} {c : Call}
    (hc : c ∈ (stepOf store identity now e r s).calls) : c.request.kind.event = e.kind := by
  -- what is kept is that the log has calls of these kinds only
  let motive : σ × List Call → Prop := fun p => ∀ c ∈ p.2, c.request.kind.event = e.kind
  have hstep : ∀ q p, q.kind.event = e.kind → motive p → motive (store.logged q p).2 := by
    intro q p hkind hlog c hc
    rcases List.mem_append.mp hc with hc | hc
    · exact hlog c hc
    · rw [List.mem_singleton.mp hc]
      exact hkind
  have hstart : motive (s, []) := fun c hc => absurd hc List.not_mem_nil
  exact recordEvent_induction hstep identity now r hstart c hc

theorem Store.calls_append (xs ys : List Request) (s : σ) :
    store.calls (xs ++ ys) s = store.calls xs s ++ store.calls ys (store.after xs s) := by
  induction xs generalizing s with
  | nil => rfl
  | cons q rest ih => exact congrArg _ (ih _)

theorem Store.after_append (xs ys : List Request) (s : σ) :
    store.after (xs ++ ys) s = store.after ys (store.after xs s) := List.foldl_append

/-- **The answers of a step are those of its store**, and the store is left as its requests leave
it. -/
theorem stepOf_answered (now : Timestamp) (e : Event) (r : RunState) (s : σ) :
    let requests := (stepOf store identity now e r s).calls.map Call.request
    (stepOf store identity now e r s).calls = store.calls requests s ∧
      (recordEvent store identity now e r s).store = store.after requests s := by
  -- what is kept is that the log and the store are those of the requests made so far
  let motive : σ × List Call → Prop := fun p =>
    p.2 = store.calls (p.2.map Call.request) s ∧ p.1 = store.after (p.2.map Call.request) s
  have hstep : ∀ q p, q.kind.event = e.kind → motive p → motive (store.logged q p).2 := by
    rintro q ⟨s₁, log⟩ - ⟨hlog, hafter⟩
    show log ++ [⟨q, (store q s₁).1⟩] = store.calls ((log ++ [_]).map Call.request) s ∧
      (store q s₁).2 = store.after ((log ++ [_]).map Call.request) s
    rw [List.map_append, store.calls_append, store.after_append, ← hlog, ← hafter]
    exact ⟨rfl, rfl⟩
  have hkept := recordEvent_induction hstep identity now r (show motive (s, []) from ⟨rfl, rfl⟩)
  have hstore := congrArg HookReport.store (recordEvent_logged store identity now r s e [])
  exact ⟨hkept.1, hstore.symm.trans hkept.2⟩

/-- **An event that is answered nothing fails**, and uploads nothing. -/
theorem stepOf_of_no_answers {now : Timestamp} {e : Event} {r : RunState} {s : σ}
    (h : ¬ (stepOf store identity now e r s).Answered) :
    (stepOf store identity now e r s).outcome = .failed ∧
      (stepOf store identity now e r s).uploads = [] := by
  cases e with
  | beforeRun browser =>
    rcases beforeRun_logged store identity r s browser with
      ⟨cause, s', hreport⟩ | ⟨attempt, cause, s', hreport⟩ | ⟨attempt, matrix, s', hreport⟩
    · rw [(stepOf_of_logged store identity now (.beforeRun browser) hreport).1]
      exact ⟨rfl, rfl⟩
    · rw [(stepOf_of_logged store identity now (.beforeRun browser) hreport).1]
      exact ⟨rfl, rfl⟩
    · rw [(stepOf_of_logged store identity now (.beforeRun browser) hreport).1] at h
      exact absurd ⟨.upsertAttempt (identity.attemptRow browser), attempt, List.mem_cons_self⟩ h
  | beforeSpec name =>
    rcases beforeSpec_logged store r s name with
      ⟨-, hreport⟩ | ⟨matrix, -, ⟨cause, s', hreport⟩ | ⟨id, s', hreport⟩⟩
    · rw [(stepOf_of_logged store identity now (.beforeSpec name) hreport).1]
      exact ⟨rfl, rfl⟩
    · rw [(stepOf_of_logged store identity now (.beforeSpec name) hreport).1]
      exact ⟨rfl, rfl⟩
    · rw [(stepOf_of_logged store identity now (.beforeSpec name) hreport).1] at h
      exact absurd ⟨.insertSpec name matrix, id, List.mem_cons_self⟩ h
  | afterSpec name results =>
    rcases afterSpec_logged store r s name results with
      ⟨-, hreport⟩ | ⟨current, -, ⟨cause, s', hreport⟩ | ⟨result, blocks, s', -, hreport⟩⟩
    · rw [(stepOf_of_logged store identity now (.afterSpec name results) hreport).1]
      exact ⟨rfl, rfl⟩
    · rw [(stepOf_of_logged store identity now (.afterSpec name results) hreport).1]
      exact ⟨rfl, rfl⟩
    · rw [(stepOf_of_logged store identity now (.afterSpec name results) hreport).1] at h
      exact absurd ⟨.completeSpec current.id (.ofStats results.stats), (), List.mem_cons_self⟩ h
  | afterRun details =>
    obtain ⟨matrix, attempt, close, calls₁, calls₂, calls₃, s', -, -, hclose, hreport⟩ :=
      afterRun_logged store now r s
    rw [(stepOf_of_logged store identity now (.afterRun details) hreport).1] at h ⊢
    -- without its last call the end of a run has a notice, and has failed
    cases hclose with
    | failed _ cause =>
      have hmem : .error (.store cause) ∈ [matrix, attempt, .error (.store cause)] :=
        List.mem_cons_of_mem _ (List.mem_cons_of_mem _ List.mem_cons_self)
      exact ⟨(closing_failed hmem).2, rfl⟩
    | done _ answer =>
      refine absurd ⟨.close, answer, ?_⟩ h
      exact List.mem_append_right _ List.mem_cons_self

end RunJournal
