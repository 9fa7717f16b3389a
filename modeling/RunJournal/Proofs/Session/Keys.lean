import RunJournal.Proofs.Session.Mirror
import RunJournal.Proofs.Session.Steps

/-!
# Keys do not mix up artifacts

Recorders that share one store also share one bucket, in which whatever is put under a key replaces
what was there. No artifact replaces one that shows something else. Two artifacts of a session have
the same key exactly if they show the same: the same attempt of a test, and then they were submitted
in one step, or the same spec, and then by one recorder during that spec.

A key is made of identifiers, so this comes from who holds which. An identifier that is given is
greater than all before. A test thus gets its own in one step (`lt_of_subject`), and a spec that one
recorder holds no other comes to hold; once it is forgotten nobody ever does (`held_turns`).
The main statement is `keys_apart`.
-/

namespace RunJournal

/-! ## Specs of one recorder -/

/-- A spec comes to be remembered only when one begins, and is then a new one. -/
theorem Store.BackedBy.spec_recordEvent {σ : Type} {store : Store σ} {tables : σ → Tables}
    (h : store.BackedBy tables) (identity : Identity) (now : Timestamp) (e : Event) (r : RunState)
    (s : σ) :
    ((recordEvent store identity now e r s).state.spec = r.spec ∧ e.kind ≠ .beforeSpec) ∨
      ∀ spec, (recordEvent store identity now e r s).state.spec.map CurrentSpec.id = some spec →
        (tables s).lastId < spec.value := by
  -- only the beginning of a spec changes which one is remembered
  cases e with
  | beforeRun browser =>
    refine .inl ⟨?_, fun hkind => EventKind.noConfusion hkind⟩
    rw [recordEvent, beforeRun]
    split
    · rfl
    · split <;> rfl
  | beforeSpec name =>
    refine .inr fun spec hspec => ?_
    rw [recordEvent, beforeSpec] at hspec
    split at hspec
    · cases hspec
    · rename_i matrix hmatrix
      rcases hinsert : store (.insertSpec name matrix) s with ⟨answer, s₁⟩
      simp only [hinsert] at hspec
      cases answer with
      | error cause => cases hspec
      | ok id =>
        cases hspec
        -- the new row has an id above all that there were
        exact (h.served hinsert).lt_spec
  | afterSpec name results =>
    refine .inl ⟨?_, fun hkind => EventKind.noConfusion hkind⟩
    rw [recordEvent, afterSpec]
    split
    · rfl
    · split <;> rfl
  | afterRun details => exact .inl ⟨rfl, fun hkind => EventKind.noConfusion hkind⟩

namespace Session

variable {s : Session} {c : Turn} {m : Member} {spec : SpecId} {name name' : String}

/-- The recorder of a name remembers a spec. -/
def Holds (s : Session) (name : String) (spec : SpecId) : Prop :=
  ∃ m, s.member? name = some m ∧ m.state.spec.map CurrentSpec.id = some spec

/-- No spec is remembered by two recorders. -/
def Exclusive (s : Session) : Prop :=
  ∀ name name' spec, s.Holds name spec → s.Holds name' spec → name = name'

/-- A spec that a recorder holds has been given. -/
theorem Sound.spec_le (h : s.Sound) (hholds : s.Holds name spec) :
    spec.value ≤ s.tables.lastId := by
  obtain ⟨m, hm, hspec⟩ := hholds
  obtain ⟨current, hcurrent, rfl⟩ := Option.map_eq_some_iff.mp hspec
  obtain ⟨-, row, -, hrow, -⟩ := (h.mirrors name m hm).spec current hcurrent
  exact ((h.tables.mem_ids _).mp (h.tables.mem_ids_of_spec? hrow)).2

/-- What a recorder holds after a turn it held before, or it is new and got in this turn. -/
theorem holds_turn (h : (s.turn c).Holds name spec) :
    (s.Holds name spec ∧ (c.name = name → c.event.kind ≠ .beforeSpec)) ∨
      (c.name = name ∧ s.tables.lastId < spec.value) := by
  obtain ⟨m', hm', hspec⟩ := h
  -- a turn of nobody does nothing; one of a member changes that member alone
  cases hm : s.member? c.name with
  | none =>
    rw [turn_of_none hm] at hm'
    refine .inl ⟨⟨m', hm', hspec⟩, ?_⟩
    rintro rfl
    rw [hm] at hm'
    cases hm'
  | some m =>
    rw [member?_turn hm] at hm'
    split at hm'
    · rename_i hname
      cases hm'
      rcases m.store_backedBy.spec_recordEvent m.identity c.now c.event m.state (m.calls, s.tables)
        with ⟨hsame, hkind⟩ | hnew
      · refine .inl ⟨⟨m, hname ▸ hm, ?_⟩, fun _ => hkind⟩
        rw [← hsame]
        exact hspec
      · exact .inr ⟨hname.symm, hnew spec hspec⟩
    · rename_i hname
      exact .inl ⟨⟨m', hm', hspec⟩, fun heq => absurd heq.symm hname⟩

theorem exclusive_gather (participants : List Participant) : (gather participants).Exclusive := by
  rintro name name' spec ⟨m, hm, hspec⟩ -
  obtain ⟨p, -, -, rfl⟩ := member?_gather hm
  cases hspec

/-- **A turn gives nobody a spec that another one holds.** -/
theorem Exclusive.turn (h : s.Exclusive) (hsound : s.Sound) (c : Turn) : (s.turn c).Exclusive := by
  intro name name' spec hholds hholds'
  rcases holds_turn hholds with ⟨hbefore, -⟩ | ⟨hname, hnew⟩
  · rcases holds_turn hholds' with ⟨hbefore', -⟩ | ⟨-, hnew'⟩
    · exact h name name' spec hbefore hbefore'
    · exact absurd (hsound.spec_le hbefore) (Int.not_le.mpr hnew')
  · rcases holds_turn hholds' with ⟨hbefore', -⟩ | ⟨hname', -⟩
    · exact absurd (hsound.spec_le hbefore') (Int.not_le.mpr hnew)
    · exact hname.symm.trans hname'

theorem Exclusive.turns (h : s.Exclusive) (hsound : s.Sound) (cs : List Turn) :
    (s.turns cs).Exclusive := by
  induction cs generalizing s with
  | nil => exact h
  | cons c rest ih => exact ih (h.turn hsound c) (hsound.turn c)

/-- **A spec that was given is held on from before**, without another one begun. -/
theorem holds_turns {cs : List Turn} (hspec : spec.value ≤ s.tables.lastId)
    (h : (s.turns cs).Holds name spec) :
    s.Holds name spec ∧ ∀ c ∈ cs, c.name = name → c.event.kind ≠ .beforeSpec := by
  induction cs generalizing s with
  | nil => exact ⟨h, fun c hc => absurd hc List.not_mem_nil⟩
  | cons c rest ih =>
    have hgrown : spec.value ≤ (s.turn c).tables.lastId :=
      Int.le_trans hspec (Int.ofNat_le.mpr (leadsTo_turn c s).extends.lastId)
    obtain ⟨hnext, hrest⟩ := ih hgrown h
    rcases holds_turn hnext with ⟨hbefore, hfirst⟩ | ⟨-, hnew⟩
    · refine ⟨hbefore, fun d hd => ?_⟩
      rcases List.mem_cons.mp hd with rfl | hd
      · exact hfirst
      · exact hrest d hd
    · exact absurd hspec (Int.not_le.mpr hnew)

/-! ## Artifacts of one turn -/

/-- Every artifact of a turn belongs to the spec that is held. -/
theorem holds_of_mem_artifacts (hm : s.member? c.name = some m) {a : Artifact}
    (ha : a ∈ (m.step c s.tables).artifacts) : s.Holds c.name a.spec :=
  ⟨m, hm, (origin_of_mem_artifacts m.store m.identity ha).1⟩

/-- All artifacts of a step belong to one spec. -/
theorem spec_eq_of_mem_artifacts {cs : List Turn} {x : String × Step} (hx : x ∈ steps cs s)
    {a b : Artifact} (ha : a ∈ x.2.artifacts) (hb : b ∈ x.2.artifacts) : a.spec = b.spec := by
  obtain ⟨cs₁, c, cs₂, m, rfl, -, rfl⟩ := exists_turn_of_mem_steps hx
  have hspec := (origin_of_mem_artifacts m.store m.identity ha).1
  have hspec' := (origin_of_mem_artifacts m.store m.identity hb).1
  exact Option.some.inj (hspec.symm.trans hspec')

/-- A test that a screenshot shows got its row in the same turn. -/
theorem row_of_subject (hm : s.member? c.name = some m) {a : Artifact}
    (ha : a ∈ (m.step c s.tables).artifacts) {test : TestId} {index : Nat}
    (hsubject : a.subject = .attempt test index) :
    s.tables.lastId < test.value ∧ test.value ≤ (s.turn c).tables.lastId ∧
      ∃ row ∈ (s.turn c).tables.tests, row.id = test ∧ row.values.specId = a.spec := by
  obtain ⟨-, horigin⟩ := origin_of_mem_artifacts m.store m.identity ha
  obtain ⟨row, hspec, hcall⟩ := horigin test index hsubject
  obtain ⟨t, t', hbefore, -, hserved, hafter⟩ := m.store_backedBy.served_of_mem_calls hcall
  obtain ⟨hnew, hgiven, hrow⟩ := hserved.test
  have hbefore := hbefore.extends
  have hafter := hafter.extends
  rw [tables_turn hm]
  refine ⟨Int.lt_of_le_of_lt (Int.ofNat_le.mpr hbefore.lastId) hnew,
    Int.le_trans hgiven (Int.ofNat_le.mpr hafter.lastId), ⟨test, row⟩, ?_, rfl, hspec⟩
  exact hafter.tests.mem hrow

/-- A row of a test that was made stays, and so does that of its spec. -/
theorem rows_of_mem_artifacts (hsound : s.Sound) {cs : List Turn} {x : String × Step}
    (hx : x ∈ steps cs s) {a : Artifact} (ha : a ∈ x.2.artifacts) :
    (∃ row ∈ (s.turns cs).tables.specs, row.id = a.spec) ∧
      ∀ test index, a.subject = .attempt test index →
        ∃ row ∈ (s.turns cs).tables.tests, row.id = test ∧ row.values.specId = a.spec := by
  obtain ⟨cs₁, c, cs₂, m, rfl, hm, rfl⟩ := exists_turn_of_mem_steps hx
  have hturn : (s.turns (cs₁ ++ c :: cs₂)) = ((s.turns cs₁).turn c).turns cs₂ := List.foldl_append
  have hlater := (leadsTo_turns cs₂ ((s.turns cs₁).turn c)).extends
  rw [hturn]
  constructor
  · obtain ⟨m', hm', hspec⟩ := holds_of_mem_artifacts hm ha
    obtain ⟨current, hcurrent, hid⟩ := Option.map_eq_some_iff.mp hspec
    have hsound₁ := hsound.turns cs₁
    obtain ⟨-, row, -, hrow, -⟩ := (hsound₁.mirrors c.name m' hm').spec current hcurrent
    obtain ⟨hrow, hrow_id⟩ := hsound₁.tables.spec?_eq_some_iff.mp hrow
    obtain ⟨row', hrow', hlasting⟩ :=
      ((leadsTo_turn c (s.turns cs₁)).extends.trans hlater).exists_spec hrow
    have hid' : row'.id = row.id := congrArg Prod.fst hlasting
    exact ⟨row', hrow', hid'.trans (hrow_id.trans hid)⟩
  · intro test index hsubject
    obtain ⟨-, -, row, hrow, hid, hspec⟩ := row_of_subject hm ha hsubject
    exact ⟨row, hlater.tests.mem hrow, hid, hspec⟩

/-! ## Artifacts of two turns -/

/-- Steps at different turns show different tests, and show one spec only if one recorder made them
during that spec. -/
theorem apart_of_append (hsound : s.Sound) (hexclusive : s.Exclusive) {cs : List Turn}
    {before between after : List (String × Step)} {x y : String × Step}
    (h : steps cs s = before ++ x :: (between ++ y :: after)) {a b : Artifact}
    (ha : a ∈ x.2.artifacts) (hb : b ∈ y.2.artifacts) :
    (∀ test index index', a.subject = .attempt test index → b.subject ≠ .attempt test index') ∧
      (a.spec = b.spec →
        x.1 = y.1 ∧ ∀ z ∈ between, z.1 = x.1 → z.2.event.kind ≠ .beforeSpec) := by
  obtain ⟨cs₁, c, cs₂, m, rfl, hm, -, rfl, hrest⟩ := steps_eq_append_cons h
  obtain ⟨cs₃, d, cs₄, m', rfl, hm', rfl, rfl, -⟩ := steps_eq_append_cons hrest.symm
  -- `s₁` and `s₂` are the sessions in which the two turns are taken
  have hsound₁ := hsound.turns cs₁
  have hexclusive₁ := hexclusive.turns hsound cs₁
  generalize s.turns cs₁ = s₁ at hm hm' ha hb hsound₁ hexclusive₁ ⊢
  constructor
  · intro test index index' hsubject hsubject'
    obtain ⟨-, hgiven, -⟩ := row_of_subject hm ha hsubject
    obtain ⟨hnew, -⟩ := row_of_subject hm' hb hsubject'
    have hgrown := Int.ofNat_le.mpr (leadsTo_turns cs₃ (s₁.turn c)).extends.lastId
    omega
  · intro hspec
    have hfirst := holds_of_mem_artifacts hm ha
    have hsecond : (s₁.turns (c :: cs₃)).Holds d.name b.spec := holds_of_mem_artifacts hm' hb
    rw [← hspec] at hsecond
    obtain ⟨hbefore, hnone⟩ := holds_turns (hsound₁.spec_le hfirst) hsecond
    have hname := hexclusive₁ c.name d.name a.spec hfirst hbefore
    refine ⟨hname, fun z hz hzname => ?_⟩
    obtain ⟨ds, e, ds', m'', rfl, -, rfl⟩ := exists_turn_of_mem_steps hz
    have he : e ∈ c :: (ds ++ e :: ds') :=
      List.mem_cons_of_mem c (List.mem_append_right ds List.mem_cons_self)
    exact hnone e he (hzname.trans hname)

/-- **Keys do not mix up artifacts.** However many recorders take part, whatever failures are
planned for each, and however their events are interleaved: the uploads of the session are those of
the artifacts of its steps; each artifact belongs to rows that are in the tables; and two artifacts
have the same key exactly if they show the same. Screenshots then come from one step, and videos
from steps of one recorder between which it began no other spec. -/
theorem keys_apart (participants : List Participant) (cs : List Turn) :
    let s := (gather participants).turns cs
    let made := steps cs (gather participants)
    s.uploads = (made.flatMap fun x => x.2.artifacts).map Artifact.upload ∧
      (∀ x ∈ made, ∀ a ∈ x.2.artifacts, (∃ row ∈ s.tables.specs, row.id = a.spec) ∧
        ∀ test index, a.subject = .attempt test index →
          ∃ row ∈ s.tables.tests, row.id = test ∧ row.values.specId = a.spec) ∧
      ∀ (i j : Nat) (x y : String × Step), i ≤ j → made[i]? = some x → made[j]? = some y →
        ∀ a ∈ x.2.artifacts, ∀ b ∈ y.2.artifacts,
          (a.upload.key = b.upload.key ↔ a.subject = b.subject) ∧
            (a.upload.key = b.upload.key → a.spec = b.spec ∧ x.1 = y.1 ∧
              (∀ test index, a.subject = .attempt test index → i = j) ∧
              ∀ (k : Nat) (z : String × Step), i < k → k < j → made[k]? = some z → z.1 = x.1 →
                z.2.event.kind ≠ .beforeSpec) := by
  intro s made
  have hsound := sound_gather participants
  have hexclusive := exclusive_gather participants
  refine ⟨?_, fun x hx a ha => rows_of_mem_artifacts hsound hx ha, ?_⟩
  · rw [uploads_turns, gather_uploads, List.nil_append, List.map_flatMap]
    exact List.flatMap_congr fun x hx => uploads_of_mem_steps hx
  · intro i j x y hij hx hy a ha b hb
    rw [Artifact.key_eq_iff]
    rcases Nat.eq_or_lt_of_le hij with rfl | hij
    · obtain rfl : x = y := Option.some.inj (hx.symm.trans hy)
      have hspec : a.spec = b.spec := spec_eq_of_mem_artifacts (List.mem_of_getElem? hx) ha hb
      refine ⟨and_iff_left hspec, fun _ => ⟨hspec, rfl, fun _ _ _ => rfl, ?_⟩⟩
      intro k z hik hki
      omega
    · obtain ⟨before, between, after, hsplit, hbetween⟩ := exists_split_of_lt hij hx hy
      obtain ⟨htests, hspecs⟩ := apart_of_append hsound hexclusive hsplit ha hb
      -- what two steps show alike is a spec, which tells the spec of a key as well
      have hsame : a.subject = b.subject → a.spec = b.spec := by
        intro hsubject
        cases ha_subject : a.subject with
        | attempt test index =>
          exact absurd (hsubject.symm.trans ha_subject) (htests test index index ha_subject)
        | spec spec =>
          rw [Artifact.spec_of_subject ha_subject,
            Artifact.spec_of_subject (hsubject.symm.trans ha_subject)]
      refine ⟨and_iff_left_of_imp hsame, fun ⟨hsubject, hspec⟩ => ?_⟩
      obtain ⟨hname, hnone⟩ := hspecs hspec
      refine ⟨hspec, hname, fun test index ha_subject => ?_, fun k z hik hkj hz hzname => ?_⟩
      · exact absurd (hsubject.symm.trans ha_subject) (htests test index index ha_subject)
      · exact hnone z (hbetween k z hik hkj hz) hzname

end Session

end RunJournal
