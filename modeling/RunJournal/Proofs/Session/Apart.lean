import Mathlib.Data.List.Dedup
import RunJournal.Proofs.Session.Counterpart

/-!
# Shards do not interfere

Recorders with keys of their own share one store, which fails none of them, and none of them ends
its run. However their events are interleaved, each of them gets what it would get with a store of
its own: the same outcomes, and the same rows but for a renaming of identifiers
(`Session.shards_independent`). What they share are attempts, of which there are as many as there
are keys of attempts among those whose run was started.

The proof takes the session of all and that of one through the turns side by side. `InStep` relates
the two: a turn of the one is a turn in both sessions, and a turn of another one is a turn in the
first session only and shows in nothing that belongs to the one.
-/

namespace RunJournal

/-- No failures are planned. -/
def FailurePlan.none : FailurePlan := fun _ _ => .none

/-- A recorder that has its store, without any failures in front of it. -/
def Member.Reliable (m : Member) : Prop := m.isConnected = true ∧ m.plan = .none

/-- The counts of calls make no difference when no failures are planned. -/
theorem Member.Reliable.answersAs {m : Member} (h : m.Reliable) :
    m.store.AnswersAs Tables.store Prod.snd := by
  rintro q ⟨counts, t⟩
  rw [Member.store, h.1, h.2]
  rfl

namespace Session

/-- A session of recorders by name, none of which meets a failure. -/
def ofRoster (roster : List (String × Identity)) : Session :=
  gather (roster.map fun p => ⟨p.1, p.2, .none⟩)

/-- What turns come to, each with the name of the recorder whose turn it was. -/
def outcomes : List Turn → Session → List (String × Outcome)
  | [], _ => []
  | c :: rest, s =>
    match s.member? c.name with
    | none => outcomes rest (s.turn c)
    | some m => (c.name, (m.report c s.tables).outcome) :: outcomes rest (s.turn c)

/-- A session of a roster that fails nothing and that nobody has closed. -/
structure Running (roster : List (String × Identity)) (s : Session) : Prop where
  sound : s.Sound
  isOpen : s.tables.closed = false
  members : ∀ name m, s.member? name = some m → (name, m.identity) ∈ roster ∧ m.Reliable
  present : ∀ p ∈ roster, ∃ m, s.member? p.1 = some m

/-- The recorder `p` of the session `s` is in step with the one of the same name that is alone in
the session `a`. -/
def InStep (p : String × Identity) (s a : Session) : Prop := ∃ m ma ρ,
  s.member? p.1 = some m ∧ a.member? p.1 = some ma ∧ m.identity = p.2 ∧ ma.identity = p.2 ∧
    Matches p.2 ρ ma.state a.tables m.state s.tables

variable {roster : List (String × Identity)} {p : String × Identity} {s a : Session} {c : Turn}
  {m : Member}

/-! ## Turns -/

theorem running_ofRoster (roster : List (String × Identity)) : (ofRoster roster).Running roster where
  sound := sound_gather _
  isOpen := congrArg Tables.closed (gather_tables _)
  members name m hm := by
    obtain ⟨participant, hmem, rfl, rfl⟩ := member?_gather hm
    obtain ⟨p, hp, rfl⟩ := List.mem_map.mp hmem
    exact ⟨hp, rfl, rfl⟩
  present p hp := exists_member?_gather (List.mem_map_of_mem hp)

namespace Running

/-- A turn is an event of a recorder with open tables. -/
theorem effect (h : s.Running roster) (hc : c.event.kind ≠ .afterRun)
    (hm : s.member? c.name = some m) :
    EventEffect m.identity m.state s.tables c.event (m.report c s.tables).outcome
      (m.next c s.tables).state (s.turn c).tables := by
  have heffect := eventEffect_recordEvent c.now hc h.isOpen h.sound.tables (h.sound.mirrors _ m hm)
  have hreport : recordEvent Tables.store m.identity c.now c.event m.state s.tables =
      (m.report c s.tables).through Prod.snd :=
    recordEvent_through (h.members _ m hm).2.answersAs m.identity c.now c.event m.state
      (m.calls, s.tables)
  rw [hreport] at heffect
  rw [tables_turn hm]
  exact heffect

theorem turn (h : s.Running roster) (hc : c.event.kind ≠ .afterRun) : (s.turn c).Running roster := by
  cases hm : s.member? c.name with
  | none => rwa [turn_of_none hm]
  | some m =>
    refine ⟨h.sound.turn c, (h.effect hc hm).closed_eq.trans h.isOpen, fun name m' hm' => ?_,
      fun p hp => ?_⟩
    · rw [member?_turn hm] at hm'
      split at hm'
      · rename_i hname
        cases hm'
        exact hname ▸ h.members _ m hm
      · exact h.members name m' hm'
    · rw [member?_turn hm]
      split
      · exact ⟨_, rfl⟩
      · exact h.present p hp

end Running

/-! ## In step -/

/-- The recorder of an entry of a roster has the identity of that entry. -/
theorem Running.identity_eq (h : s.Running roster) (hnames : (roster.map Prod.fst).Nodup)
    (hp : p ∈ roster) (hm : s.member? p.1 = some m) : m.identity = p.2 :=
  congrArg Prod.snd (List.inj_on_of_nodup_map hnames (h.members _ m hm).1 hp rfl)

/-- Before the first turn, a recorder is in step with itself alone. -/
theorem inStep_ofRoster (hnames : (roster.map Prod.fst).Nodup) (hp : p ∈ roster) :
    InStep p (ofRoster roster) (ofRoster [p]) := by
  have hs := running_ofRoster roster
  have ha := running_ofRoster [p]
  obtain ⟨m, hm⟩ := hs.present p hp
  obtain ⟨ma, hma⟩ := ha.present p (List.mem_singleton.mpr rfl)
  refine ⟨m, ma, id, hm, hma, hs.identity_eq hnames hp hm,
    ha.identity_eq (List.nodup_singleton _) (List.mem_singleton.mpr rfl) hma, ?_⟩
  have hstate : m.state = .initial := by
    obtain ⟨participant, -, -, rfl⟩ := member?_gather hm
    rfl
  have hstatea : ma.state = .initial := by
    obtain ⟨participant, -, -, rfl⟩ := member?_gather hma
    rfl
  rw [hstate, hstatea, ofRoster, gather_tables, ofRoster, gather_tables]
  exact ⟨strictMono_id, Int.le_refl _, rfl, rfl, fun _ => rfl⟩

namespace InStep

/-- A turn of both. -/
theorem turn_own (h : InStep p s a) (hs : s.Running roster) (ha : a.Running [p])
    (hc : c.event.kind ≠ .afterRun) (hname : c.name = p.1) :
    ∃ m ma, s.member? c.name = some m ∧ a.member? c.name = some ma ∧
      (m.report c s.tables).outcome = (ma.report c a.tables).outcome ∧
      InStep p (s.turn c) (a.turn c) := by
  obtain ⟨m, ma, ρ, hm, hma, hidentity, hidentitya, hmatches⟩ := h
  rw [← hname] at hm hma
  have heffect := hs.effect hc hm
  have heffecta := ha.effect hc hma
  have hmirrors := hs.sound.mirrors _ m hm
  have hmirrorsa := ha.sound.mirrors _ ma hma
  rw [hidentity] at heffect hmirrors
  rw [hidentitya] at heffecta hmirrorsa
  obtain ⟨houtcome, ρ', hmatches'⟩ :=
    hmatches.step ha.sound.tables hs.sound.tables hmirrorsa hmirrors heffecta heffect
  refine ⟨m, ma, hm, hma, houtcome.symm, m.next c s.tables, ma.next c a.tables, ρ', ?_, ?_,
    hidentity, hidentitya, hmatches'⟩
  · rw [member?_turn hm, if_pos hname.symm]
  · rw [member?_turn hma, if_pos hname.symm]

/-- A turn of another recorder. -/
theorem turn_other (h : InStep p s a) (hs : s.Running roster) (hp : p ∈ roster)
    (hkeys : (roster.map fun p => p.2.shardKey).Nodup) (hc : c.event.kind ≠ .afterRun)
    (hname : c.name ≠ p.1) : InStep p (s.turn c) a := by
  cases hother : s.member? c.name with
  | none => rwa [turn_of_none hother]
  | some other =>
    obtain ⟨m, ma, ρ, hm, hma, hidentity, hidentitya, hmatches⟩ := h
    have hne : p.2.shardKey ≠ other.identity.shardKey := fun hkey => by
      have hentry := List.inj_on_of_nodup_map hkeys hp (hs.members _ other hother).1 hkey
      exact hname (congrArg Prod.fst hentry).symm
    have heffect := hs.effect hc hother
    have hshard := heffect.shard_eq hs.sound.tables (hs.sound.mirrors _ other hother) hne
    refine ⟨m, ma, ρ, ?_, hma, hidentity, hidentitya, hmatches.frame hshard heffect.lastId_le⟩
    rw [member?_turn hother, if_neg hname.symm]
    exact hm

/-- **A recorder stays in step with itself alone**, whatever turns of others are between its own. -/
theorem turns (hp : p ∈ roster) (hkeys : (roster.map fun p => p.2.shardKey).Nodup) (cs : List Turn)
    (hcs : ∀ c ∈ cs, c.event.kind ≠ .afterRun) (hs : s.Running roster) (ha : a.Running [p])
    (h : InStep p s a) :
    (s.outcomes cs).filter (·.1 = p.1) = a.outcomes (cs.filter (·.name = p.1)) ∧
      InStep p (s.turns cs) (a.turns (cs.filter (·.name = p.1))) := by
  induction cs generalizing s a with
  | nil => exact ⟨rfl, h⟩
  | cons c rest ih =>
    have hc := hcs c List.mem_cons_self
    have hrest : ∀ c ∈ rest, c.event.kind ≠ .afterRun := fun c hc =>
      hcs c (List.mem_cons_of_mem _ hc)
    -- a turn of the recorder itself is taken on both sides, any other only in the session
    by_cases hname : c.name = p.1
    · obtain ⟨m, ma, hm, hma, houtcome, hstep⟩ := h.turn_own hs ha hc hname
      obtain ⟨houtcomes, hsteps⟩ := ih hrest (hs.turn hc) (ha.turn hc) hstep
      have hfilter : (c :: rest).filter (·.name = p.1) = c :: rest.filter (·.name = p.1) := by
        simp [hname]
      rw [hfilter]
      refine ⟨?_, hsteps⟩
      simp only [outcomes, hm, hma, houtcome, ← houtcomes]
      simp [hname]
    · have hstep := h.turn_other hs hp hkeys hc hname
      obtain ⟨houtcomes, hsteps⟩ := ih hrest (hs.turn hc) ha hstep
      have hfilter : (c :: rest).filter (·.name = p.1) = rest.filter (·.name = p.1) := by
        simp [hname]
      rw [hfilter]
      refine ⟨?_, hsteps⟩
      rw [outcomes, ← houtcomes]
      split
      · rfl
      · simp [hname]

end InStep

/-! ## Attempts -/

/-- The entries of a roster whose run is started in turns. -/
def begun (cs : List Turn) (roster : List (String × Identity)) : List (String × Identity) :=
  roster.filter fun p => ∃ c ∈ cs, c.name = p.1 ∧ c.event.kind = .beforeRun

theorem mem_map_begun_cons (c : Turn) (rest : List Turn) (key : Int × Int) :
    (key ∈ (begun (c :: rest) roster).map fun p => p.2.attemptKey) ↔
      (∃ p ∈ roster, (c.name = p.1 ∧ c.event.kind = .beforeRun) ∧ p.2.attemptKey = key) ∨
        key ∈ (begun rest roster).map fun p => p.2.attemptKey := by
  simp only [begun, List.mem_map, List.mem_filter, List.exists_mem_cons_iff, decide_eq_true_iff]
  constructor
  · rintro ⟨p, ⟨hp, hnow | hlater⟩, hkey⟩
    · exact .inl ⟨p, hp, hnow, hkey⟩
    · exact .inr ⟨p, ⟨hp, hlater⟩, hkey⟩
  · rintro (⟨p, hp, hnow, hkey⟩ | ⟨p, ⟨hp, hlater⟩, hkey⟩)
    · exact ⟨p, ⟨hp, .inl hnow⟩, hkey⟩
    · exact ⟨p, ⟨hp, .inr hlater⟩, hkey⟩

/-- Attempts are made for those whose run is started, and for no others. -/
theorem mem_attemptKeys_turns (hs : s.Running roster) (hnames : (roster.map Prod.fst).Nodup)
    (cs : List Turn) (hcs : ∀ c ∈ cs, c.event.kind ≠ .afterRun) (key : Int × Int) :
    key ∈ (s.turns cs).tables.attempts.map (·.values.key) ↔
      key ∈ s.tables.attempts.map (·.values.key) ∨
        key ∈ (begun cs roster).map fun p => p.2.attemptKey := by
  induction cs generalizing s with
  | nil => simp [turns, begun]
  | cons c rest ih =>
    have hc := hcs c List.mem_cons_self
    have hrest : ∀ c ∈ rest, c.event.kind ≠ .afterRun := fun c hc =>
      hcs c (List.mem_cons_of_mem _ hc)
    -- one turn makes at most the attempt of the one whose turn it is
    have hstep : key ∈ (s.turn c).tables.attempts.map (·.values.key) ↔
        key ∈ s.tables.attempts.map (·.values.key) ∨
          ∃ p ∈ roster, (c.name = p.1 ∧ c.event.kind = .beforeRun) ∧ p.2.attemptKey = key := by
      cases hm : s.member? c.name with
      | none =>
        rw [turn_of_none hm]
        refine (or_iff_left ?_).symm
        rintro ⟨p, hp, ⟨hname, -⟩, -⟩
        obtain ⟨m, hpresent⟩ := hs.present p hp
        rw [← hname, hm] at hpresent
        cases hpresent
      | some m =>
        rw [(hs.effect hc hm).mem_attemptKeys_iff]
        refine or_congr_right ⟨fun ⟨hkind, hkey⟩ => ?_, ?_⟩
        · exact ⟨_, (hs.members _ m hm).1, ⟨rfl, hkind⟩, hkey⟩
        · rintro ⟨p, hp, ⟨hname, hkind⟩, hkey⟩
          rw [hname] at hm
          exact ⟨hkind, hs.identity_eq hnames hp hm ▸ hkey⟩
    show key ∈ ((s.turn c).turns rest).tables.attempts.map (·.values.key) ↔ _
    rw [ih (hs.turn hc) hrest, hstep]
    rw [or_assoc, mem_map_begun_cons]

/-- **Shards do not interfere.** Recorders of a roster, with names and keys of their own, take turns
in any order, and none ends its run. To each of them the session comes to what it comes to when the
recorder is alone: its turns have the same outcomes, and the rows that belong to it are all the rows
of the tables that it would have, with other identifiers. There are as many attempts as there are
keys of attempts among the recorders whose run was started. -/
theorem shards_independent (roster : List (String × Identity)) (cs : List Turn)
    (hnames : (roster.map Prod.fst).Nodup) (hkeys : (roster.map fun p => p.2.shardKey).Nodup)
    (hcs : ∀ c ∈ cs, c.event.kind ≠ .afterRun) :
    (∀ p ∈ roster,
      ((ofRoster roster).outcomes cs).filter (·.1 = p.1) =
        (ofRoster [p]).outcomes (cs.filter (·.name = p.1)) ∧
      ∃ ρ : Int → Int, StrictMono ρ ∧
        ((ofRoster roster).turns cs).tables.shard p.2 =
          ((ofRoster [p]).turns (cs.filter (·.name = p.1))).tables.rows.rename ρ) ∧
    ((ofRoster roster).turns cs).tables.attempts.length =
      ((begun cs roster).map fun p => p.2.attemptKey).dedup.length := by
  have hs := running_ofRoster roster
  refine ⟨fun p hp => ?_, ?_⟩
  · obtain ⟨houtcomes, m, ma, ρ, -, -, -, -, hmatches⟩ :=
      (inStep_ofRoster hnames hp).turns hp hkeys cs hcs hs (running_ofRoster [p])
    exact ⟨houtcomes, ρ, hmatches.strictMono, hmatches.rows⟩
  · -- no two attempts have one key, so they are counted by the keys that there are
    have hnodup := (hs.sound.turns cs).tables.attempt_keys
    have hperm : (((ofRoster roster).turns cs).tables.attempts.map (·.values.key)).Perm
        ((begun cs roster).map fun p => p.2.attemptKey).dedup := by
      refine (List.perm_ext_iff_of_nodup hnodup (List.nodup_dedup _)).mpr fun key => ?_
      rw [mem_attemptKeys_turns hs hnames cs hcs, ofRoster, gather_tables, List.mem_dedup]
      exact or_iff_right List.not_mem_nil
    rw [← hperm.length_eq, List.length_map]

/-- Two shards of one attempt. -/
def twoShards : List (String × Identity) :=
  [("a", .sample), ("b", { Identity.sample with matrixId := "shard-b" })]

/-- Turns of two shards. The second one begins a spec before its run, and starts its run twice. -/
def interleavedTurns : List Turn :=
  [⟨"a", ⟨0, 0⟩, .beforeRun "chrome"⟩, ⟨"b", ⟨0, 0⟩, .beforeSpec "early.ts"⟩,
    ⟨"b", ⟨0, 0⟩, .beforeRun "firefox"⟩, ⟨"a", ⟨0, 0⟩, .beforeSpec "x.ts"⟩,
    ⟨"b", ⟨0, 0⟩, .beforeSpec "x.ts"⟩, ⟨"b", ⟨0, 0⟩, .beforeRun "firefox"⟩,
    ⟨"a", ⟨0, 0⟩, .afterSpec "x.ts" ⟨⟨0, 0, 0, 0, 0⟩, [], [], none⟩⟩,
    ⟨"b", ⟨0, 0⟩, .afterSpec "x.ts" ⟨⟨1, 0, 1, 0, 0⟩, [], [], none⟩⟩]

/-- What the second of two shards gets is what it would get alone, and the attempt is one. -/
theorem shards_independent_twoShards :
    (twoShards.map Prod.fst).Nodup ∧ (twoShards.map fun p => p.2.shardKey).Nodup ∧
      (∀ c ∈ interleavedTurns, c.event.kind ≠ .afterRun) ∧
      ((ofRoster twoShards).outcomes interleavedTurns).filter (·.1 = "b") =
        [("b", .failed), ("b", .recorded), ("b", .recorded), ("b", .recorded), ("b", .recorded)] ∧
      ((ofRoster twoShards).turns interleavedTurns).tables.attempts.length = 1 := by
  have hnames : (twoShards.map Prod.fst).Nodup := by decide +kernel
  have hkeys : (twoShards.map fun p => p.2.shardKey).Nodup := by decide +kernel
  have hturns : ∀ c ∈ interleavedTurns, c.event.kind ≠ .afterRun := by decide +kernel
  obtain ⟨heach, hattempts⟩ := shards_independent twoShards interleavedTurns hnames hkeys hturns
  obtain ⟨houtcomes, -⟩ := heach _ (List.mem_cons_of_mem _ List.mem_cons_self)
  refine ⟨hnames, hkeys, hturns, houtcomes.trans ?_, hattempts.trans ?_⟩
  · decide +kernel
  · decide +kernel

end Session

end RunJournal
