import RunJournal.Proofs.Store.Backed
import RunJournal.Recorder.Session

/-!
# Turns of a session

Recorders that share one store take turns: at each turn the recorder of a name takes one event. Any
interleaving of what they do is a list of turns, and `Session.turns` is the session after it.
Between the tables and each recorder stands a plan of failures of its own.

Whatever the plans, the tables stand behind all recorders (`Member.store_backedBy`), so that a turn
does to the tables what some requests do to them (`Session.leadsTo_turn`) and every invariant of the
tables is one of the session.
-/

namespace RunJournal

/-- A recorder of a session before its first event, with the failures that are planned for it. -/
structure Participant where
  name : String
  identity : Identity
  plan : FailurePlan

/-- One turn of a session: the recorder of a name takes an event. -/
structure Turn where
  name : String
  now : Timestamp
  event : Event

/-- Tables stand behind the recorders of a session, whatever failures are planned. -/
theorem Member.store_backedBy (m : Member) : m.store.BackedBy Prod.snd := by
  rintro q ⟨counts, t⟩
  rw [Member.store, Store.withFailures]
  cases m.plan q.kind (counts.count q.kind q.kind) with
  | some cause => exact .inl ⟨cause, _, rfl, rfl⟩
  | none =>
    cases m.isConnected with
    | true =>
      rcases Tables.store_cases q t with ⟨cause, hfail⟩ | ⟨answer, t', hanswer, -, -⟩
      · simp only [if_true, hfail]
        exact .inl ⟨cause, _, rfl, rfl⟩
      · simp only [if_true, hanswer]
        exact .inr ⟨answer, _, rfl, rfl⟩
    | false =>
      simp only [Bool.false_eq_true, if_false, Gateway.unavailable]
      cases Gateway.precheck q with
      | some cause => exact .inl ⟨cause, _, rfl, rfl⟩
      | none => exact .inl ⟨_, _, rfl, rfl⟩

/-- What a recorder does at its turn, when the session has the tables `t`. -/
def Member.report (c : Turn) (t : Tables) (m : Member) : HookReport (CallCounts × Tables) :=
  recordEvent m.store m.identity c.now c.event m.state (m.calls, t)

/-- A recorder after its turn. -/
def Member.next (c : Turn) (t : Tables) (m : Member) : Member :=
  { m with state := (m.report c t).state, calls := (m.report c t).store.1 }

namespace Session

/-- A session of participants, on an empty store. -/
def gather (participants : List Participant) : Session :=
  participants.foldl (fun s p => s.join p.name (.new p.identity true p.plan)) .empty

/-- The session after a turn. A turn of nobody changes nothing. -/
def turn (c : Turn) (s : Session) : Session :=
  match s.member? c.name with
  | none => s
  | some m => (s.record c.now c.name m c.event).2

/-- The session after turns. -/
def turns (cs : List Turn) (s : Session) : Session := cs.foldl (fun s c => s.turn c) s

/-! ## Recorders by name -/

variable {s : Session} {c : Turn} {m : Member}

theorem lookup_setMember (name other : String) (m : Member) (members : List (String × Member)) :
    (setMember name m members).lookup other =
      if other = name then some m else members.lookup other := by
  induction members with
  | nil =>
    rw [setMember, List.lookup_cons, List.lookup_nil]
    by_cases h : other = name
    · rw [if_pos h, h, beq_self_eq_true]
    · rw [if_neg h, beq_false_of_ne h]
  | cons entry rest ih =>
    obtain ⟨n, old⟩ := entry
    rw [setMember]
    -- the entry is replaced where it stands, or looked for further on
    by_cases hn : n = name
    · subst hn
      rw [if_pos rfl, List.lookup_cons, List.lookup_cons]
      by_cases h : other = n
      · rw [if_pos h, h, beq_self_eq_true]
      · rw [if_neg h, beq_false_of_ne h]
    · rw [if_neg hn, List.lookup_cons, List.lookup_cons, ih]
      by_cases h : other = n
      · subst h
        simp only [beq_self_eq_true, if_neg hn]
      · rw [beq_false_of_ne h]

theorem turn_of_none (h : s.member? c.name = none) : s.turn c = s := by
  rw [turn, h]

theorem tables_turn (h : s.member? c.name = some m) :
    (s.turn c).tables = (m.report c s.tables).store.2 := by
  rw [turn, h]
  rfl

/-- A turn changes the recorder whose turn it is, and no other. -/
theorem member?_turn (h : s.member? c.name = some m) (name : String) :
    (s.turn c).member? name =
      if name = c.name then some (m.next c s.tables) else s.member? name := by
  rw [turn, h]
  exact lookup_setMember _ _ _ _

/-- A turn does to the tables what some requests do to them. -/
theorem leadsTo_turn (c : Turn) (s : Session) : s.tables.LeadsTo (s.turn c).tables := by
  cases hm : s.member? c.name with
  | none =>
    rw [turn_of_none hm]
    exact .refl _
  | some m =>
    rw [tables_turn hm]
    exact m.store_backedBy.leadsTo_recordEvent m.identity c.now c.event m.state (m.calls, s.tables)

theorem leadsTo_turns (cs : List Turn) (s : Session) : s.tables.LeadsTo (s.turns cs).tables := by
  induction cs generalizing s with
  | nil => exact .refl _
  | cons c rest ih => exact (leadsTo_turn c s).trans (ih (s.turn c))

/-- Recorders that join do nothing yet. -/
theorem foldl_join (participants : List Participant) (s : Session) :
    let s' := participants.foldl (fun s p => s.join p.name (.new p.identity true p.plan)) s
    s'.tables = s.tables ∧ s'.uploads = s.uploads := by
  induction participants generalizing s with
  | nil => exact ⟨rfl, rfl⟩
  | cons p rest ih => exact ih (s.join p.name (.new p.identity true p.plan))

/-- Nothing has happened yet when a session gathers. -/
theorem gather_tables (participants : List Participant) : (gather participants).tables = .empty :=
  (foldl_join participants .empty).1

theorem gather_uploads (participants : List Participant) : (gather participants).uploads = [] :=
  (foldl_join participants .empty).2

theorem member?_join (s : Session) (name other : String) (m : Member) :
    (s.join name m).member? other = if other = name then some m else s.member? other :=
  lookup_setMember name other m s.members

/-- Every recorder of a session that gathers is a participant who is new. -/
theorem member?_gather {participants : List Participant} {name : String} {m : Member}
    (h : (gather participants).member? name = some m) :
    ∃ p ∈ participants, p.name = name ∧ m = .new p.identity true p.plan := by
  -- stated for any session to join, so that the induction on the participants goes through
  have hjoin : ∀ s : Session,
      (participants.foldl (fun s p => s.join p.name (.new p.identity true p.plan)) s).member? name =
        some m →
      s.member? name = some m ∨
        ∃ p ∈ participants, p.name = name ∧ m = .new p.identity true p.plan := by
    clear h
    induction participants with
    | nil => exact fun _ hs => .inl hs
    | cons p rest ih =>
      intro s hs
      rcases ih _ hs with hm | ⟨q, hq, hnew⟩
      · rw [member?_join] at hm
        split at hm
        · rename_i hname
          exact .inr ⟨p, List.mem_cons_self, hname.symm, (Option.some.inj hm).symm⟩
        · exact .inl hm
      · exact .inr ⟨q, List.mem_cons_of_mem p hq, hnew⟩
  rcases hjoin .empty h with hempty | hnew
  · cases hempty
  · exact hnew

/-- Every participant is there when a session has gathered. -/
theorem exists_member?_gather {participants : List Participant} {p : Participant}
    (hp : p ∈ participants) : ∃ m, (gather participants).member? p.name = some m := by
  have hjoin : ∀ s : Session, ((∃ m, s.member? p.name = some m) ∨ p ∈ participants) →
      ∃ m, (participants.foldl (fun s p => s.join p.name (.new p.identity true p.plan))
        s).member? p.name = some m := by
    clear hp
    induction participants with
    | nil => exact fun _ hs => hs.resolve_right List.not_mem_nil
    | cons q rest ih =>
      intro s hs
      refine ih (s.join q.name (.new q.identity true q.plan)) ?_
      rw [member?_join]
      split
      · exact .inl ⟨_, rfl⟩
      · rename_i hname
        rcases hs with hs | hs
        · exact .inl hs
        · rcases List.mem_cons.mp hs with rfl | hs
          · exact absurd rfl hname
          · exact .inr hs
  exact hjoin .empty (.inr hp)

end Session

end RunJournal
