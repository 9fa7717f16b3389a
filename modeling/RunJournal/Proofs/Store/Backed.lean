import RunJournal.Proofs.Recorder.Provenance
import RunJournal.Proofs.Store.Growth

/-!
# Stores with tables behind them

Between a recorder and the tables there may be something that fails requests of its own accord.
`Store.BackedBy` is all that is known of such a store: it answers as the tables do, or it fails the
request and the tables never see it.

An event then does to the tables what some requests do to them
(`Store.BackedBy.leadsTo_recordEvent`), so that every invariant of the tables is kept. And each of
its calls that is answered was served by the tables at some moment of the event
(`Store.BackedBy.served_of_mem_calls`).
-/

namespace RunJournal

variable {σ : Type} {store : Store σ} {tables : σ → Tables}

/-- A store with tables behind it: it answers as they do, or it fails the request and they never see
it. -/
def Store.BackedBy (store : Store σ) (tables : σ → Tables) : Prop := ∀ q s,
  (∃ cause s', store q s = (.error cause, s') ∧ tables s' = tables s) ∨
    ∃ answer s', store q s = (.ok answer, s') ∧ Tables.store q (tables s) = (.ok answer, tables s')

/-- The tables themselves fail nothing of their own accord. -/
theorem Tables.store_backedBy : Tables.store.BackedBy id := by
  intro q t
  rcases Tables.store_cases q t with ⟨cause, hfail⟩ | ⟨answer, t', hanswer, -, -⟩
  · exact .inl ⟨cause, t, hfail, rfl⟩
  · exact .inr ⟨answer, t', hanswer, hanswer⟩

namespace Store.BackedBy

/-- A request that succeeds is one to the tables. -/
theorem store_eq_ok (h : store.BackedBy tables) {q : Request} {answer : q.Answer} {s s' : σ}
    (hanswer : store q s = (.ok answer, s')) :
    Tables.store q (tables s) = (.ok answer, tables s') := by
  rcases h q s with ⟨cause, s'', hfail, -⟩ | ⟨answer', s'', hok, htables⟩
  · rw [hfail] at hanswer
    cases hanswer
  · rw [hok] at hanswer
    cases hanswer
    exact htables

/-- A request that succeeds is served by the tables. -/
theorem served (h : store.BackedBy tables) {q : Request} {answer : q.Answer} {s s' : σ}
    (hanswer : store q s = (.ok answer, s')) : (tables s).Served q answer (tables s') :=
  Tables.served_of_store (h.store_eq_ok hanswer)

theorem leadsTo (h : store.BackedBy tables) (q : Request) (s : σ) :
    (tables s).LeadsTo (tables (store q s).2) := by
  rcases h q s with ⟨cause, s', hfail, htables⟩ | ⟨answer, s', hok, htables⟩
  · rw [hfail, htables]
    exact .refl _
  · have hlead := Tables.leadsTo_store q (tables s)
    rw [htables] at hlead
    rw [hok]
    exact hlead

/-- A request leads on to where its answer was given. -/
theorem leadsTo_of_eq (h : store.BackedBy tables) {q : Request}
    {answer : Except StoreError q.Answer} {s s' : σ} (hanswer : store q s = (answer, s')) :
    (tables s).LeadsTo (tables s') := by
  have hlead := h.leadsTo q s
  rw [hanswer] at hlead
  exact hlead

/-- **An event does to the tables what some requests do to them.** -/
theorem leadsTo_recordEvent (h : store.BackedBy tables) (identity : Identity) (now : Timestamp)
    (e : Event) (r : RunState) (s : σ) :
    (tables s).LeadsTo (tables (recordEvent store identity now e r s).store) :=
  recordEvent_induction (motive := fun s' => (tables s).LeadsTo (tables s'))
    (fun q s' _ hlead => hlead.trans (h.leadsTo q s')) identity now r (.refl _)

/-- **Each call that is answered was served by the tables**, at some moment of its step. -/
theorem served_of_mem_calls (h : store.BackedBy tables) {identity : Identity} {now : Timestamp}
    {e : Event} {r : RunState} {s : σ} {q : Request} {answer : q.Answer}
    (hmem : (⟨q, .ok answer⟩ : Call) ∈ (stepOf store identity now e r s).calls) :
    ∃ t t', (tables s).LeadsTo t ∧ t.closed = false ∧ t.Served q answer t' ∧
      t'.LeadsTo (tables (recordEvent store identity now e r s).store) := by
  -- the calls made so far are on the log, and the tables have come some way since each of them
  let motive : σ × List Call → Prop := fun p => (tables s).LeadsTo (tables p.1) ∧
    ∀ (q : Request) (answer : q.Answer), (⟨q, .ok answer⟩ : Call) ∈ p.2 →
      ∃ t t', (tables s).LeadsTo t ∧ t.closed = false ∧ t.Served q answer t' ∧
        t'.LeadsTo (tables p.1)
  have hstep : ∀ q p, q.kind.event = e.kind → motive p → motive (store.logged q p).2 := by
    rintro q ⟨s₁, log⟩ - ⟨hlead, hserved⟩
    rcases hanswer : store q s₁ with ⟨answer, s₂⟩
    have hnext := h.leadsTo_of_eq hanswer
    rw [Store.logged_of_eq hanswer]
    refine ⟨hlead.trans hnext, fun q' answer' hmem => ?_⟩
    rcases List.mem_append.mp hmem with hmem | hmem
    · obtain ⟨t, t', hbefore, hopen, hcall, hafter⟩ := hserved q' answer' hmem
      exact ⟨t, t', hbefore, hopen, hcall, hafter.trans hnext⟩
    · cases List.mem_singleton.mp hmem
      exact ⟨tables s₁, tables s₂, hlead, Tables.open_of_store (h.store_eq_ok hanswer),
        h.served hanswer, .refl _⟩
  have hstart : motive (s, []) := ⟨.refl _, fun q answer hmem => absurd hmem List.not_mem_nil⟩
  have hend := recordEvent_induction hstep identity now r hstart
  obtain ⟨t, t', hbefore, hopen, hcall, hafter⟩ := hend.2 q answer hmem
  refine ⟨t, t', hbefore, hopen, hcall, ?_⟩
  rw [← recordEvent_logged store identity now r s e []]
  exact hafter

end Store.BackedBy

end RunJournal
