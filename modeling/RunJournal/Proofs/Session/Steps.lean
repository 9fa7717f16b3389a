import RunJournal.Proofs.Recorder.Artifacts
import RunJournal.Proofs.Session.Turns

/-!
# Steps of a session

What recorders do at their turns, step by step. `Session.steps` are the steps of all recorders in
the order of their turns, each with the name of the recorder that made it. Every step is one of a
recorder as it is after the turns before (`steps_eq_append_cons`), and what a session has uploaded
are the uploads of its steps (`uploads_turns`).
-/

namespace RunJournal

/-- The step that a recorder makes at its turn, when the session has the tables `t`. -/
def Member.step (c : Turn) (t : Tables) (m : Member) : Step :=
  stepOf m.store m.identity c.now c.event m.state (m.calls, t)

namespace Session

/-- The steps of turns, each with the name of the recorder that made it. -/
def steps : List Turn → Session → List (String × Step)
  | [], _ => []
  | c :: rest, s =>
    match s.member? c.name with
    | none => steps rest (s.turn c)
    | some m => (c.name, m.step c s.tables) :: steps rest (s.turn c)

variable {s : Session} {c : Turn} {m : Member}

theorem steps_cons_of_none (h : s.member? c.name = none) (rest : List Turn) :
    steps (c :: rest) s = steps rest (s.turn c) := by
  rw [steps, h]

theorem steps_cons_of_some (h : s.member? c.name = some m) (rest : List Turn) :
    steps (c :: rest) s = (c.name, m.step c s.tables) :: steps rest (s.turn c) := by
  rw [steps, h]

theorem uploads_turn_of_some (h : s.member? c.name = some m) :
    (s.turn c).uploads = s.uploads ++ (m.step c s.tables).uploads := by
  rw [turn, h]
  rfl

/-- A session has uploaded what its steps have. -/
theorem uploads_turns (cs : List Turn) (s : Session) :
    (s.turns cs).uploads = s.uploads ++ (steps cs s).flatMap fun x => x.2.uploads := by
  induction cs generalizing s with
  | nil => exact (List.append_nil _).symm
  | cons c rest ih =>
    show ((s.turn c).turns rest).uploads = _
    rw [ih]
    cases hm : s.member? c.name with
    | none => rw [steps_cons_of_none hm, turn_of_none hm]
    | some m =>
      rw [steps_cons_of_some hm, uploads_turn_of_some hm, List.flatMap_cons, List.append_assoc]

/-- **Every step is made by a recorder at its turn**, as it is after the turns before. -/
theorem steps_eq_append_cons {cs : List Turn} {before after : List (String × Step)}
    {x : String × Step} (h : steps cs s = before ++ x :: after) :
    ∃ cs₁ c cs₂ m, cs = cs₁ ++ c :: cs₂ ∧ (s.turns cs₁).member? c.name = some m ∧
      before = steps cs₁ s ∧ x = (c.name, m.step c (s.turns cs₁).tables) ∧
      after = steps cs₂ ((s.turns cs₁).turn c) := by
  -- turn by turn: one of nobody makes no step, and any other makes one
  induction cs generalizing s before with
  | nil => exact absurd (List.append_eq_nil_iff.mp h.symm).2 (List.cons_ne_nil _ _)
  | cons c rest ih =>
    cases hm : s.member? c.name with
    | none =>
      rw [steps_cons_of_none hm] at h
      obtain ⟨cs₁, d, cs₂, m, rfl, hmember, rfl, hx, hafter⟩ := ih h
      exact ⟨c :: cs₁, d, cs₂, m, rfl, hmember, (steps_cons_of_none hm cs₁).symm, hx, hafter⟩
    | some m =>
      rw [steps_cons_of_some hm] at h
      cases before with
      | nil =>
        obtain ⟨hx, hafter⟩ := List.cons.inj h
        exact ⟨[], c, rest, m, rfl, hm, rfl, hx.symm, hafter.symm⟩
      | cons y before =>
        obtain ⟨hy, htail⟩ := List.cons.inj h
        obtain ⟨cs₁, d, cs₂, m', rfl, hmember, rfl, hx, hafter⟩ := ih htail
        refine ⟨c :: cs₁, d, cs₂, m', rfl, hmember, ?_, hx, hafter⟩
        rw [steps_cons_of_some hm, hy]

/-- Two places of a list, with what stands before, between and after them. -/
theorem exists_split_of_lt {α : Type} {l : List α} {i j : Nat} {x y : α} (hij : i < j)
    (hx : l[i]? = some x) (hy : l[j]? = some y) :
    ∃ before between after, l = before ++ x :: (between ++ y :: after) ∧
      ∀ (k : Nat) (z : α), i < k → k < j → l[k]? = some z → z ∈ between := by
  obtain ⟨hi, rfl⟩ := List.getElem?_eq_some_iff.mp hx
  have hafter : ∀ k, i < k → (l.drop (i + 1))[k - (i + 1)]? = l[k]? := by
    intro k hk
    rw [List.getElem?_drop]
    congr 1
    omega
  obtain ⟨hj, rfl⟩ := List.getElem?_eq_some_iff.mp ((hafter j hij).trans hy)
  refine ⟨l.take i, (l.drop (i + 1)).take (j - (i + 1)), (l.drop (i + 1)).drop (j - (i + 1) + 1),
    ?_, fun k z hik hkj hz => ?_⟩
  · rw [← List.drop_eq_getElem_cons hj, List.take_append_drop, ← List.drop_eq_getElem_cons hi,
      List.take_append_drop]
  · have hplace : ((l.drop (i + 1)).take (j - (i + 1)))[k - (i + 1)]? = some z := by
      rw [List.getElem?_take_of_lt (by omega), hafter k hik, hz]
    exact List.mem_of_getElem? hplace

/-- A step is made by a recorder at one of the turns. -/
theorem exists_turn_of_mem_steps {cs : List Turn} {x : String × Step} (hx : x ∈ steps cs s) :
    ∃ cs₁ c cs₂ m, cs = cs₁ ++ c :: cs₂ ∧ (s.turns cs₁).member? c.name = some m ∧
      x = (c.name, m.step c (s.turns cs₁).tables) := by
  obtain ⟨before, after, hsplit⟩ := List.append_of_mem hx
  obtain ⟨cs₁, c, cs₂, m, hcs, hm, -, hx, -⟩ := steps_eq_append_cons hsplit
  exact ⟨cs₁, c, cs₂, m, hcs, hm, hx⟩

/-- The uploads of a step are those of its artifacts. -/
theorem uploads_of_mem_steps {cs : List Turn} {x : String × Step} (hx : x ∈ steps cs s) :
    x.2.uploads = x.2.artifacts.map Artifact.upload := by
  obtain ⟨cs₁, c, cs₂, m, rfl, -, rfl⟩ := exists_turn_of_mem_steps hx
  exact uploads_stepOf m.store m.identity c.now c.event m.state (m.calls, (s.turns cs₁).tables)

end Session

end RunJournal
