import RunJournal.Proofs.Replay.Resilience
import RunJournal.Proofs.Session.Turns

/-!
# What recorders remember of shared tables

A recorder remembers identifiers of rows that others may find and change, and remembers them through
failures and through runs that are started over. `RunState.Mirrors` says that they are still what
they were remembered as: an attempt of the key of the recorder, a shard of that attempt, a spec of
that shard. An event keeps it with any store that has the tables behind it
(`Store.BackedBy.mirrors_recordEvent`), because a key is found again under the identifier that it
had, and every other event does to the tables no more than to extend them.

`Session.Coherent` puts the recorders of a session side by side: with equal keys they hold equal
identifiers. The main statement is `Session.coherent_turns`.
-/

namespace RunJournal

/-- What the attempt of a recorder is found by. -/
def Identity.attemptKey (i : Identity) : Int × Int := (i.workflowId, i.attempt)

/-- The rows that a recorder remembers are in the tables, each with what it is remembered for. -/
structure RunState.Mirrors (identity : Identity) (t : Tables) (r : RunState) : Prop where
  attempt : ∀ a, r.attemptId = some a →
    ∃ row, t.attempt? a = some row ∧ row.values.key = identity.attemptKey
  matrix : ∀ m, r.matrixId = some m → ∃ a row, r.attemptId = some a ∧
    t.matrix? m = some row ∧ row.values.key = (identity.matrixId, a)
  spec : ∀ c, r.spec = some c → ∃ m row, r.matrixId = some m ∧
    t.spec? c.id = some row ∧ row.name = c.name ∧ row.matrixId = m

/-- What the recorders of a session hold, after turns. -/
structure Session.Coherent (s : Session) (played : List Turn) : Prop where
  mirrors : ∀ name m, s.member? name = some m → m.state.Mirrors m.identity s.tables
  /-- Recorders of one attempt hold one identifier for it. -/
  attempts_agree : ∀ name₁ name₂ m₁ m₂, s.member? name₁ = some m₁ → s.member? name₂ = some m₂ →
    m₁.identity.attemptKey = m₂.identity.attemptKey →
    ∀ a₁ a₂, m₁.state.attemptId = some a₁ → m₂.state.attemptId = some a₂ → a₁ = a₂
  /-- Recorders of one shard hold one identifier for it. -/
  matrices_agree : ∀ name₁ name₂ m₁ m₂, s.member? name₁ = some m₁ → s.member? name₂ = some m₂ →
    m₁.identity.attemptKey = m₂.identity.attemptKey → m₁.identity.matrixId = m₂.identity.matrixId →
    ∀ k₁ k₂, m₁.state.matrixId = some k₁ → m₂.state.matrixId = some k₂ → k₁ = k₂
  finished : ∀ name m, s.member? name = some m →
    (m.state.finished = true ↔ ∃ c ∈ played, c.name = name ∧ c.event.kind = .afterRun)

/-! ## One recorder -/

variable {identity : Identity} {t t' : Tables} {r : RunState}

namespace RunState

theorem mirrors_initial (identity : Identity) (t : Tables) :
    RunState.initial.Mirrors identity t where
  attempt _ h := nomatch h
  matrix _ h := nomatch h
  spec _ h := nomatch h

namespace Mirrors

/-- What mirrors tables mirrors all later ones. -/
theorem mono (h : r.Mirrors identity t) (hextends : t.Extends t') (ht' : t'.WellFormed) :
    r.Mirrors identity t' := by
  refine ⟨fun a ha => ?_, fun m hm => ?_, fun c hc => ?_⟩
  · obtain ⟨row, hrow, hkey⟩ := h.attempt a ha
    obtain ⟨row', hrow', hkey'⟩ := hextends.attempt? ht' hrow
    exact ⟨row', hrow', hkey'.trans hkey⟩
  · obtain ⟨a, row, ha, hrow, hkey⟩ := h.matrix m hm
    obtain ⟨row', hrow', hkey'⟩ := hextends.matrix? ht' hrow
    exact ⟨a, row', ha, hrow', hkey'.trans hkey⟩
  · obtain ⟨m, row, hm, hrow, hname, hmatrix⟩ := h.spec c hc
    obtain ⟨row', hrow', hname', hmatrix'⟩ := hextends.spec? ht' hrow
    exact ⟨m, row', hm, hrow', hname'.trans hname, hmatrix'.trans hmatrix⟩

/-- A remembered attempt is the only one with the key of the recorder. -/
theorem attemptId_eq (h : r.Mirrors identity t) (ht : t.WellFormed) {a b : AttemptId}
    (ha : r.attemptId = some a) {row : AttemptRow} (hrow : t.attempt? b = some row)
    (hkey : row.values.key = identity.attemptKey) : a = b := by
  obtain ⟨old, hold, hold_key⟩ := h.attempt a ha
  obtain ⟨hold_mem, rfl⟩ := ht.attempt?_eq_some_iff.mp hold
  obtain ⟨hrow_mem, rfl⟩ := ht.attempt?_eq_some_iff.mp hrow
  rw [ht.attempt_eq_of_key hold_mem hrow_mem (hold_key.trans hkey.symm)]

/-- A remembered shard is the only one of its name in the attempt that is remembered. -/
theorem matrixId_eq (h : r.Mirrors identity t) (ht : t.WellFormed) {a : AttemptId} {m k : MatrixId}
    (ha : r.attemptId = some a) (hm : r.matrixId = some m) {row : MatrixRow}
    (hrow : t.matrix? k = some row) (hkey : row.values.key = (identity.matrixId, a)) : m = k := by
  obtain ⟨a', old, ha', hold, hold_key⟩ := h.matrix m hm
  cases ha.symm.trans ha'
  obtain ⟨hold_mem, rfl⟩ := ht.matrix?_eq_some_iff.mp hold
  obtain ⟨hrow_mem, rfl⟩ := ht.matrix?_eq_some_iff.mp hrow
  rw [ht.matrix_eq_of_key hold_mem hrow_mem (hold_key.trans hkey.symm)]

theorem setBrowser (h : r.Mirrors identity t) (browser : Option String) :
    { r with browser }.Mirrors identity t := ⟨h.attempt, h.matrix, h.spec⟩

theorem finish (h : r.Mirrors identity t) : { r with finished := true }.Mirrors identity t :=
  ⟨h.attempt, h.matrix, h.spec⟩

theorem forgetSpec (h : r.Mirrors identity t) : { r with spec := none }.Mirrors identity t :=
  ⟨h.attempt, h.matrix, fun _ hc => nomatch hc⟩

/-- An attempt is remembered that was asked for. It is the one that was remembered before, if any
was, so that the shard still belongs to it. -/
theorem setAttempt (h : r.Mirrors identity t) (ht : t.WellFormed) {a : AttemptId} {row : AttemptRow}
    (hrow : t.attempt? a = some row) (hkey : row.values.key = identity.attemptKey) :
    { r with attemptId := some a }.Mirrors identity t := by
  refine ⟨fun b hb => ?_, fun m hm => ?_, h.spec⟩
  · cases hb
    exact ⟨row, hrow, hkey⟩
  · obtain ⟨b, matrix, hb, hmatrix⟩ := h.matrix m hm
    cases h.attemptId_eq ht hb hrow hkey
    exact ⟨a, matrix, rfl, hmatrix⟩

/-- A shard is remembered that was asked for. It is the one that was remembered before, if any was,
so that the spec still belongs to it. -/
theorem setMatrix (h : r.Mirrors identity t) (ht : t.WellFormed) {a : AttemptId} {m : MatrixId}
    {row : MatrixRow} (ha : r.attemptId = some a) (hrow : t.matrix? m = some row)
    (hkey : row.values.key = (identity.matrixId, a)) :
    { r with matrixId := some m }.Mirrors identity t := by
  refine ⟨h.attempt, fun k hk => ?_, fun c hc => ?_⟩
  · cases hk
    exact ⟨a, row, ha, hrow, hkey⟩
  · obtain ⟨k, spec, hk, hspec⟩ := h.spec c hc
    cases h.matrixId_eq ht ha hk hrow hkey
    exact ⟨m, spec, rfl, hspec⟩

theorem setSpec (h : r.Mirrors identity t) {m : MatrixId} {c : CurrentSpec} {row : SpecRow}
    (hm : r.matrixId = some m) (hrow : t.spec? c.id = some row) (hname : row.name = c.name)
    (hmatrix : row.matrixId = m) : { r with spec := some c }.Mirrors identity t := by
  refine ⟨h.attempt, h.matrix, fun d hd => ?_⟩
  cases hd
  exact ⟨m, row, hm, hrow, hname, hmatrix⟩

end Mirrors

end RunState

/-- **An event leaves behind what mirrors the tables**, whatever the store fails. -/
theorem Store.BackedBy.mirrors_recordEvent {σ : Type} {store : Store σ} {tables : σ → Tables}
    (h : store.BackedBy tables) (now : Timestamp) (e : Event) {s : σ} (ht : (tables s).WellFormed)
    (hr : r.Mirrors identity (tables s)) :
    (recordEvent store identity now e r s).state.Mirrors identity
      (tables (recordEvent store identity now e r s).store) := by
  -- what is remembered comes from an answer, which names a row of the tables at that time
  cases e with
  | beforeRun browser =>
    rw [recordEvent, beforeRun]
    rcases hattempt : store (.upsertAttempt (identity.attemptRow browser)) s with ⟨answer, s₁⟩
    have hlead₁ := h.leadsTo_of_eq hattempt
    have ht₁ := hlead₁.wellFormed ht
    -- the rows that were remembered before are there in the grown tables
    have hr₁ := (hr.mono hlead₁.extends ht₁).setBrowser (some browser)
    cases answer with
    | error cause => exact hr₁
    | ok attempt =>
      obtain ⟨row, hrow, hkey⟩ := (h.served hattempt).attempt? ht
      have hr₁ := hr₁.setAttempt ht₁ hrow hkey
      rcases hmatrix : store (.upsertMatrix (identity.matrixRow attempt)) s₁ with ⟨answer, s₂⟩
      have hlead₂ := h.leadsTo_of_eq hmatrix
      have ht₂ := hlead₂.wellFormed ht₁
      have hr₂ := hr₁.mono hlead₂.extends ht₂
      simp only [hmatrix]
      cases answer with
      | error cause => exact hr₂
      | ok matrix =>
        obtain ⟨shard, hshard, hshard_key⟩ := (h.served hmatrix).matrix? ht₁
        exact hr₂.setMatrix ht₂ rfl hshard hshard_key
  | beforeSpec name =>
    rw [recordEvent, beforeSpec]
    obtain ⟨browser, attemptId, matrixId, spec, finished⟩ := r
    cases matrixId with
    | none => exact hr.forgetSpec
    | some matrix =>
      rcases hinsert : store (.insertSpec name matrix) s with ⟨answer, s₁⟩
      have hlead := h.leadsTo_of_eq hinsert
      have hr₁ := hr.mono hlead.extends (hlead.wellFormed ht)
      simp only [hinsert]
      cases answer with
      | error cause => exact hr₁.forgetSpec
      | ok id =>
        obtain ⟨row, hrow, hname, hmatrix⟩ := (h.served hinsert).spec? ht
        exact hr₁.setSpec (c := ⟨name, id⟩) rfl hrow hname hmatrix
  | afterSpec name results =>
    have hstate : (recordEvent store identity now (.afterSpec name results) r s).state = r := by
      simp only [recordEvent, afterSpec]
      split
      · rfl
      · split <;> rfl
    have hlead := h.leadsTo_recordEvent identity now (.afterSpec name results) r s
    rw [hstate]
    exact hr.mono hlead.extends (hlead.wellFormed ht)
  | afterRun details =>
    have hlead := h.leadsTo_recordEvent identity now (.afterRun details) r s
    exact (hr.mono hlead.extends (hlead.wellFormed ht)).finish

/-! ## All recorders of a session -/

namespace Session

variable {s : Session} {c : Turn}

/-- Well-formed tables that every recorder mirrors. -/
structure Sound (s : Session) : Prop where
  tables : s.tables.WellFormed
  mirrors : ∀ name m, s.member? name = some m → m.state.Mirrors m.identity s.tables

theorem sound_gather (participants : List Participant) : (gather participants).Sound where
  tables := gather_tables participants ▸ Tables.wellFormed_empty
  mirrors name m hm := by
    obtain ⟨p, -, -, rfl⟩ := member?_gather hm
    exact RunState.mirrors_initial _ _

/-- **A turn of anybody keeps what everybody remembers.** -/
theorem Sound.turn (h : s.Sound) (c : Turn) : (s.turn c).Sound := by
  cases hm : s.member? c.name with
  | none => rwa [turn_of_none hm]
  | some m =>
    have hlead := leadsTo_turn c s
    have htables := hlead.wellFormed h.tables
    refine ⟨htables, fun name m' hm' => ?_⟩
    rw [member?_turn hm] at hm'
    split at hm'
    · cases hm'
      rw [tables_turn hm]
      exact m.store_backedBy.mirrors_recordEvent c.now c.event (s := (m.calls, s.tables)) h.tables
        (h.mirrors _ m hm)
    · exact (h.mirrors name m' hm').mono hlead.extends htables

theorem Sound.turns (h : s.Sound) (cs : List Turn) : (s.turns cs).Sound := by
  induction cs generalizing s with
  | nil => exact h
  | cons c rest ih => exact ih (h.turn c)

/-- A recorder keeps its identity, and has reported the end of the run if it had before or did at
one of its turns. -/
theorem member?_turns (cs : List Turn) {name : String} {m' : Member}
    (hm' : (s.turns cs).member? name = some m') :
    ∃ m, s.member? name = some m ∧ m'.identity = m.identity ∧
      (m'.state.finished = true ↔
        m.state.finished = true ∨ ∃ c ∈ cs, c.name = name ∧ c.event.kind = .afterRun) := by
  induction cs generalizing s with
  | nil => exact ⟨m', hm', rfl, by simp⟩
  | cons c rest ih =>
    obtain ⟨m₁, hm₁, hidentity, hfinished⟩ := ih (s := s.turn c) hm'
    -- a turn of nobody does nothing; one of a member may be that of the member asked about
    cases hm : s.member? c.name with
    | none =>
      rw [turn_of_none hm] at hm₁
      have hne : c.name ≠ name := fun heq => by
        rw [heq, hm₁] at hm
        cases hm
      exact ⟨m₁, hm₁, hidentity, by simp [hfinished, hne]⟩
    | some m =>
      rw [member?_turn hm] at hm₁
      split at hm₁
      · rename_i heq
        cases hm₁
        obtain ⟨-, hfin⟩ :=
          recordEvent_browser_finished m.store m.identity c.now c.event m.state (m.calls, s.tables)
        have hstep : (m.next c s.tables).state.finished = true ↔
            c.event.kind = .afterRun ∨ m.state.finished = true := by
          show (recordEvent _ _ _ _ _ _).state.finished = true ↔ _
          rw [hfin, Bool.or_eq_true, beq_iff_eq]
        refine ⟨m, heq ▸ hm, hidentity, ?_⟩
        rw [hfinished, hstep, List.exists_mem_cons_iff]
        simp only [heq, true_and]
        tauto
      · rename_i hne
        refine ⟨m₁, hm₁, hidentity, ?_⟩
        have hother : c.name ≠ name := fun heq => hne heq.symm
        rw [hfinished, List.exists_mem_cons_iff]
        simp [hother]

/-- **Recorders stay in step with the tables that they share.** However many take part, whatever
failures are planned for each, and however their events are interleaved: what a recorder remembers
is in the tables under its own keys, recorders with equal keys hold equal identifiers, and the end
of the run was reported exactly if it is remembered. -/
theorem coherent_turns (participants : List Participant) (cs : List Turn) :
    ((gather participants).turns cs).Coherent cs := by
  have hsound := (sound_gather participants).turns cs
  refine ⟨hsound.mirrors, ?_, ?_, fun name m' hm' => ?_⟩
  -- the attempt of one recorder has a row with the key of the other, and rows are unique by key
  · intro name₁ name₂ m₁ m₂ hm₁ hm₂ hkeys a₁ a₂ ha₁ ha₂
    obtain ⟨row, hrow, hkey⟩ := (hsound.mirrors name₂ m₂ hm₂).attempt a₂ ha₂
    exact (hsound.mirrors name₁ m₁ hm₁).attemptId_eq hsound.tables ha₁ hrow (hkey.trans hkeys.symm)
  · intro name₁ name₂ m₁ m₂ hm₁ hm₂ hkeys hmatrices k₁ k₂ hk₁ hk₂
    have hmirrors₁ := hsound.mirrors name₁ m₁ hm₁
    have hmirrors₂ := hsound.mirrors name₂ m₂ hm₂
    obtain ⟨a₁, -, ha₁, -, -⟩ := hmirrors₁.matrix k₁ hk₁
    obtain ⟨a₂, row, ha₂, hrow, hkey⟩ := hmirrors₂.matrix k₂ hk₂
    obtain ⟨attempt, hattempt, hattempt_key⟩ := hmirrors₂.attempt a₂ ha₂
    have hagree : a₁ = a₂ :=
      hmirrors₁.attemptId_eq hsound.tables ha₁ hattempt (hattempt_key.trans hkeys.symm)
    rw [← hmatrices, ← hagree] at hkey
    exact hmirrors₁.matrixId_eq hsound.tables ha₁ hk₁ hrow hkey
  · obtain ⟨m, hm, -, hfinished⟩ := member?_turns cs hm'
    obtain ⟨p, -, -, rfl⟩ := member?_gather hm
    rw [hfinished]
    exact or_iff_right Bool.false_ne_true

end Session

end RunJournal
