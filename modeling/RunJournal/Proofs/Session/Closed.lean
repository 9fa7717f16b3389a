import RunJournal.Proofs.Recorder.Answers
import RunJournal.Proofs.Session.Apart
import RunJournal.Proofs.Session.Steps
import RunJournal.Proofs.Store.Permanence

/-!
# The end of a run is the end for all

The recorder that ends its run closes the store, which all recorders of the session share. From then
on nothing that any of them is given has any effect: every event fails, the tables stay as they are,
and nothing is uploaded (`afterRun_terminal`).

Two facts come together. Tables that are closed answer no call (`no_answers_of_closed`), whatever a
recorder still remembers. And an event that is answered no call fails and uploads nothing
(`stepOf_of_no_answers`), whatever it is.
-/

namespace RunJournal

/-- A step sets the end of an attempt. -/
def Step.EndsAttempt (t : Step) (attempt : AttemptId) : Prop :=
  ∃ endTime, (⟨.finishAttempt attempt endTime, .ok ()⟩ : Call) ∈ t.calls

/-- A step marks a shard as done. -/
def Step.FinishesMatrix (t : Step) (matrix : MatrixId) : Prop :=
  (⟨.finishMatrix matrix, .ok ()⟩ : Call) ∈ t.calls

/-- No two of the steps of a session have a property. -/
def Session.AtMostOnce (made : List (String × Step)) (p : Step → Prop) : Prop :=
  ∀ (i j : Nat) (x y : String × Step), made[i]? = some x → made[j]? = some y → p x.2 → p y.2 → i = j

/-! ## Tables that are closed -/

namespace Tables

variable {t t' : Tables}

theorem LeadsTo.eq_of_closed (h : t.LeadsTo t') (hclosed : t.closed = true) : t' = t := by
  obtain ⟨requests, rfl⟩ := h
  exact (serveAll_of_closed hclosed requests).1

/-- Whether or not it was closed before, a store that was asked to close is closed. -/
theorem closed_store_close (t : Tables) : (store .close t).2.closed = true := by
  cases hclosed : t.closed with
  | true =>
    rw [store_closed hclosed]
    exact hclosed
  | false =>
    rw [store_open hclosed]
    rfl

/-- The end of a run leaves the tables closed. -/
theorem closed_afterRun (now : Timestamp) (r : RunState) (t : Tables) :
    (afterRun store now r t).store.closed = true := by
  have hclose : ∀ t : Tables, (perform store .close t).2.closed = true := by
    intro t
    have hclosed := closed_store_close t
    rw [perform]
    rcases hcall : store .close t with ⟨answer, t'⟩
    rw [hcall] at hclosed
    cases answer <;> exact hclosed
  exact hclose _

end Tables

namespace Session

variable {s : Session} {c : Turn} {m : Member}

/-- **Tables that are closed answer no call**, of whatever recorder. -/
theorem no_answers_of_closed (m : Member) (c : Turn) {t : Tables} (hclosed : t.closed = true) :
    ¬ (m.step c t).Answered := by
  rintro ⟨q, answer, hmem⟩
  obtain ⟨t₁, t₂, hlead, hopen, -⟩ := m.store_backedBy.served_of_mem_calls hmem
  rw [Tables.LeadsTo.eq_of_closed hlead hclosed, hclosed] at hopen
  cases hopen

/-- Once the tables are closed, no turn has any effect. -/
theorem steps_of_closed (hclosed : s.tables.closed = true) (cs : List Turn) :
    (s.turns cs).tables = s.tables ∧ (s.turns cs).uploads = s.uploads ∧
      ∀ x ∈ steps cs s, x.2.outcome = .failed ∧ x.2.uploads = [] ∧ ¬ x.2.Answered := by
  have hsteps : ∀ x ∈ steps cs s,
      x.2.outcome = .failed ∧ x.2.uploads = [] ∧ ¬ x.2.Answered := by
    intro x hx
    obtain ⟨cs₁, c, cs₂, m, rfl, -, rfl⟩ := exists_turn_of_mem_steps hx
    have htables := (leadsTo_turns cs₁ s).eq_of_closed hclosed
    have hnone := no_answers_of_closed m c (htables ▸ hclosed)
    obtain ⟨houtcome, huploads⟩ := stepOf_of_no_answers m.store m.identity hnone
    exact ⟨houtcome, huploads, hnone⟩
  refine ⟨(leadsTo_turns cs s).eq_of_closed hclosed, ?_, hsteps⟩
  rw [uploads_turns, List.flatMap_eq_nil_iff.mpr fun x hx => (hsteps x hx).2.1, List.append_nil]

/-! ## Recorders without failures -/

/-- Recorders stay without failures, and none leaves. -/
theorem reliable_turns (h : ∀ name m, s.member? name = some m → m.Reliable) (cs : List Turn)
    {name : String} {m : Member} (hm : (s.turns cs).member? name = some m) : m.Reliable := by
  induction cs generalizing s with
  | nil => exact h name m hm
  | cons c rest ih =>
    refine ih (s := s.turn c) (fun name' m' hm' => ?_) hm
    cases hc : s.member? c.name with
    | none =>
      rw [turn_of_none hc] at hm'
      exact h name' m' hm'
    | some old =>
      rw [member?_turn hc] at hm'
      split at hm'
      · cases hm'
        exact h c.name old hc
      · exact h name' m' hm'

/-- A recorder that was there is there after any turns. -/
theorem exists_member?_turns {name : String} (h : ∃ m, s.member? name = some m) (cs : List Turn) :
    ∃ m, (s.turns cs).member? name = some m := by
  induction cs generalizing s with
  | nil => exact h
  | cons c rest ih =>
    refine ih (s := s.turn c) ?_
    cases hc : s.member? c.name with
    | none =>
      rw [turn_of_none hc]
      exact h
    | some old =>
      rw [member?_turn hc]
      split
      · exact ⟨_, rfl⟩
      · exact h

/-- A recorder without failures closes the store when it ends its run. -/
theorem closed_of_afterRun (hm : s.member? c.name = some m) (hreliable : m.Reliable)
    (hkind : c.event.kind = .afterRun) : (s.turn c).tables.closed = true := by
  obtain ⟨name, now, event⟩ := c
  cases event with
  | beforeRun browser => cases hkind
  | beforeSpec name => cases hkind
  | afterSpec name results => cases hkind
  | afterRun details =>
    rw [tables_turn hm]
    have hthrough := recordEvent_through hreliable.answersAs m.identity now (.afterRun details)
      m.state (m.calls, s.tables)
    have hclosed := Tables.closed_afterRun now m.state s.tables
    rw [show afterRun Tables.store now m.state s.tables = _ from hthrough] at hclosed
    exact hclosed

/-- What is answered after the end of a run is answered in no step. -/
theorem not_answered_of_afterRun (h : ∀ name m, s.member? name = some m → m.Reliable)
    {cs : List Turn} {before between after : List (String × Step)} {x y : String × Step}
    (hsplit : steps cs s = before ++ x :: (between ++ y :: after))
    (hkind : x.2.event.kind = .afterRun) : ¬ y.2.Answered := by
  obtain ⟨cs₁, c, cs₂, m, rfl, hm, -, rfl, hrest⟩ := steps_eq_append_cons hsplit
  have hclosed := closed_of_afterRun hm (reliable_turns h cs₁ hm) hkind
  have hy : y ∈ steps cs₂ ((s.turns cs₁).turn c) := by
    rw [← hrest]
    exact List.mem_append_right _ List.mem_cons_self
  exact ((steps_of_closed hclosed cs₂).2.2 y hy).2.2

/-- What only the end of a run is answered happens once. -/
theorem atMostOnce_of_afterRun (h : ∀ name m, s.member? name = some m → m.Reliable)
    (cs : List Turn) {p : Step → Prop}
    (hp : ∀ x ∈ steps cs s, p x.2 → x.2.event.kind = .afterRun ∧ x.2.Answered) :
    AtMostOnce (steps cs s) p := by
  have hlt : ∀ (i j : Nat) (x y : String × Step), (steps cs s)[i]? = some x →
      (steps cs s)[j]? = some y → p x.2 → p y.2 → ¬ i < j := by
    intro i j x y hx hy hpx hpy hij
    obtain ⟨before, between, after, hsplit, -⟩ := exists_split_of_lt hij hx hy
    refine not_answered_of_afterRun h hsplit (hp x (List.mem_of_getElem? hx) hpx).1 ?_
    exact (hp y (List.mem_of_getElem? hy) hpy).2
  intro i j x y hx hy hpx hpy
  have hij := hlt i j x y hx hy hpx hpy
  have hji := hlt j i y x hy hx hpy hpx
  omega

/-- A call for the end of a run is made in a step for one. -/
theorem afterRun_of_mem_calls {cs : List Turn} {x : String × Step} (hx : x ∈ steps cs s)
    {q : Request} {answer : q.Answer} (hmem : (⟨q, .ok answer⟩ : Call) ∈ x.2.calls)
    (hkind : q.kind.event = .afterRun) : x.2.event.kind = .afterRun ∧ x.2.Answered := by
  obtain ⟨cs₁, c, cs₂, m, rfl, -, rfl⟩ := exists_turn_of_mem_steps hx
  exact ⟨(kind_event_of_mem_calls m.store m.identity hmem).symm.trans hkind, q, answer, hmem⟩

/-- **The end of a run is the end for all.** When a recorder without failures has ended its run,
whatever any recorder is given later fails, leaves the tables as they are and uploads nothing. So
each attempt gets its end, and each shard its mark, at most once in the whole session. -/
theorem afterRun_terminal (roster : List (String × Identity)) (before after : List Turn) (c : Turn)
    (hname : c.name ∈ roster.map Prod.fst) (hkind : c.event.kind = .afterRun) :
    let s := (ofRoster roster).turns (before ++ [c])
    let made := steps (before ++ c :: after) (ofRoster roster)
    (s.turns after).tables = s.tables ∧ (s.turns after).uploads = s.uploads ∧
      (∀ x ∈ steps after s, x.2.outcome = .failed ∧ x.2.uploads = []) ∧
      (∀ attempt, AtMostOnce made fun t => t.EndsAttempt attempt) ∧
      ∀ matrix, AtMostOnce made fun t => t.FinishesMatrix matrix := by
  intro s made
  have hrunning := running_ofRoster roster
  have hreliable : ∀ name m, (ofRoster roster).member? name = some m → m.Reliable :=
    fun name m hm => (hrunning.members name m hm).2
  obtain ⟨p, hp, hpname⟩ := List.mem_map.mp hname
  have hpresent : ∃ m, (ofRoster roster).member? c.name = some m := hpname ▸ hrunning.present p hp
  obtain ⟨m, hm⟩ := exists_member?_turns hpresent before
  have hs : s = ((ofRoster roster).turns before).turn c := List.foldl_append
  -- every recorder is reliable, so the end of the run closes the store for all of them
  have hclosed : s.tables.closed = true := by
    rw [hs]
    exact closed_of_afterRun hm (reliable_turns hreliable before hm) hkind
  obtain ⟨htables, huploads, hsteps⟩ := steps_of_closed hclosed after
  refine ⟨htables, huploads, fun x hx => ⟨(hsteps x hx).1, (hsteps x hx).2.1⟩,
    fun attempt => ?_, fun matrix => ?_⟩
  · refine atMostOnce_of_afterRun hreliable _ fun x hx hends => ?_
    obtain ⟨endTime, hmem⟩ := hends
    exact afterRun_of_mem_calls hx hmem rfl
  · refine atMostOnce_of_afterRun hreliable _ fun x hx hfinishes => ?_
    exact afterRun_of_mem_calls hx hfinishes rfl

/-- The second of two shards has a spec running when the first one ends its run. -/
def endedByOther : List Turn :=
  [⟨"a", ⟨0, 0⟩, .beforeRun "chrome"⟩, ⟨"b", ⟨0, 0⟩, .beforeRun "chrome"⟩,
    ⟨"b", ⟨0, 0⟩, .beforeSpec "x.ts"⟩]

/-- What the second shard is given after that: the end of its spec, with a failed test, and that of
its run. -/
def givenLate : List Turn :=
  [⟨"b", ⟨7, 0⟩, .afterSpec "x.ts" failedTest⟩, ⟨"b", ⟨8, 0⟩, .afterRun none⟩]

/-- The spec that the second shard still remembers gets no summary, no test and no upload. -/
theorem afterRun_terminal_twoShards :
    let ending : Turn := ⟨"a", ⟨5, 0⟩, .afterRun none⟩
    let s := (ofRoster twoShards).turns (endedByOther ++ [ending])
    ending.name ∈ twoShards.map Prod.fst ∧ ending.event.kind = .afterRun ∧
      (s.member? "b").bind (fun m => m.state.spec) = some ⟨"x.ts", ⟨4⟩⟩ ∧
      (steps givenLate s).length = 2 ∧
      (∀ x ∈ steps givenLate s, x.2.outcome = .failed ∧ x.2.uploads = []) ∧
      (s.turns givenLate).tables = s.tables ∧ (s.turns givenLate).uploads = [] := by
  intro ending s
  have hname : ending.name ∈ twoShards.map Prod.fst := by decide +kernel
  have hkind : ending.event.kind = .afterRun := rfl
  obtain ⟨htables, huploads, hsteps, -⟩ :=
    afterRun_terminal twoShards endedByOther givenLate ending hname hkind
  refine ⟨hname, hkind, ?_, ?_, hsteps, htables, huploads.trans ?_⟩
  · decide +kernel
  · decide +kernel
  · decide +kernel

end Session

end RunJournal
