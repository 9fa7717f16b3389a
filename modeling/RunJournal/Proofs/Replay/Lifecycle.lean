import Mathlib.Tactic.TFAE
import RunJournal.Proofs.Replay.Accounting
import RunJournal.Proofs.Replay.Resilience

/-!
# The course of a run, recognized

A replay keeps a phase, and resumes from wherever an event leaves the run, expected or not. So what
it counts as out of order is a matter of two neighbours only: `mayFollow` says which kind of event
may come right after which, and `disorder_eq_count` that the events out of order are those that
may not follow the one before them.

The events of which none is out of order are the beginnings of the runs in `lifecycle`: a start, any
number of specs that begin and end, and an end. `mayStillCome` generalizes this to every phase, and
`disorder_eq_zero_iff` is an induction on the events that takes the phase along.

`replay_lifecycle` states both for the replay of a text, and that the end of the run is dispatched
at most once, as the last event, exactly when the text reports it.
-/

namespace RunJournal

/-! ## What may follow what -/

/-- Whether an event of a kind may come right after one of another kind, or first of all. -/
def mayFollow : Option EventKind → EventKind → Bool
  | none, .beforeRun => true
  | some .beforeRun, .beforeSpec => true
  | some .beforeRun, .afterRun => true
  | some .beforeSpec, .afterSpec => true
  | some .afterSpec, .beforeSpec => true
  | some .afterSpec, .afterRun => true
  | _, _ => false

/-- For each event in turn, whether it may follow the one before it. -/
def followings (kinds : List EventKind) : List Bool :=
  mapPast (fun before kind => mayFollow before.getLast? kind) kinds

/-- The kinds of the events of specs that begin and end. -/
def specKinds (specs : Nat) : List EventKind :=
  (List.replicate specs [.beforeSpec, .afterSpec]).flatten

/-- The kinds of the events of a whole run of so many specs. -/
def lifecycle (specs : Nat) : List EventKind := .beforeRun :: specKinds specs ++ [.afterRun]

/-- What a phase allows next is what may follow the last event. -/
theorem allows_afterAll (events : List Event) (kind : EventKind) :
    (Phase.afterAll events).allows kind = mayFollow (events.map Event.kind).getLast? kind := by
  rw [Phase.afterAll, List.getLast?_map]
  cases events.getLast? with
  | none => cases kind <;> rfl
  | some e => cases he : e.kind <;> cases kind <;> simp [he, Phase.after, Phase.allows, mayFollow]

theorem disorder_concat (phase : Phase) (events : List Event) (e : Event) :
    disorder phase (events ++ [e]) = disorder phase events +
      (if ((events.getLast?.map fun e => Phase.after e.kind).getD phase).allows e.kind
        then 0 else 1) := by
  induction events generalizing phase with
  | nil => exact Nat.add_comm _ _
  | cons first rest ih =>
    rw [List.cons_append, disorder, disorder, ih, Nat.add_assoc, List.getLast?_cons]
    cases rest.getLast? <;> rfl

/-- **The events out of order are those that may not follow the one before them.** -/
theorem disorder_eq_count (events : List Event) :
    disorder .awaitingRun events = (followings (events.map Event.kind)).count false := by
  induction events using List.reverseRecOn with
  | nil => rfl
  | append_singleton events e ih =>
    have hphase : (events.getLast?.map fun e => Phase.after e.kind).getD .awaitingRun =
        Phase.afterAll events := by
      rw [Phase.afterAll]
      cases events.getLast? <;> rfl
    have hlast : followings ((events ++ [e]).map Event.kind) =
        followings (events.map Event.kind) ++
          [mayFollow (events.map Event.kind).getLast? e.kind] := by
      rw [List.map_append]
      exact mapPast_concat _ _ _
    rw [disorder_concat, hphase, allows_afterAll, ih, hlast, List.count_append]
    cases mayFollow (events.map Event.kind).getLast? e.kind <;> rfl

/-! ## Runs in order -/

/-- The kinds of the events that may still come in a phase, when so many specs begin yet. -/
def mayStillCome : Phase → Nat → List EventKind
  | .awaitingRun, specs => lifecycle specs
  | .betweenSpecs, specs => specKinds specs ++ [.afterRun]
  | .inSpec, specs => .afterSpec :: specKinds specs ++ [.afterRun]
  | .finished, _ => []

/-- What may still come begins with what the phase allows, and goes on with what may come then. -/
theorem cons_isPrefix_mayStillCome {phase : Phase} {kind : EventKind} {kinds : List EventKind} :
    (∃ specs, kind :: kinds <+: mayStillCome phase specs) ↔
      phase.allows kind = true ∧ ∃ specs, kinds <+: mayStillCome (Phase.after kind) specs := by
  cases phase with
  | finished =>
    constructor
    · rintro ⟨specs, hprefix⟩
      cases List.prefix_nil.mp hprefix
    · rintro ⟨hallows, -⟩
      cases hallows
  | awaitingRun =>
    have hfirst : ∀ specs, mayStillCome .awaitingRun specs =
        .beforeRun :: mayStillCome .betweenSpecs specs := fun _ => rfl
    simp only [hfirst, List.cons_prefix_cons, exists_and_left]
    cases kind <;> simp [Phase.allows, Phase.after]
  | inSpec =>
    have hfirst : ∀ specs, mayStillCome .inSpec specs =
        .afterSpec :: mayStillCome .betweenSpecs specs := fun _ => rfl
    simp only [hfirst, List.cons_prefix_cons, exists_and_left]
    cases kind <;> simp [Phase.allows, Phase.after]
  | betweenSpecs =>
    -- either another spec begins, or the run ends
    have hspec : ∀ specs, mayStillCome .betweenSpecs (specs + 1) =
        .beforeSpec :: mayStillCome .inSpec specs := fun _ => rfl
    have hend : mayStillCome .betweenSpecs 0 = [.afterRun] := rfl
    constructor
    · rintro ⟨specs, hprefix⟩
      cases specs with
      | zero =>
        obtain ⟨rfl, hrest⟩ := List.cons_prefix_cons.mp hprefix
        exact ⟨rfl, 0, hrest⟩
      | succ specs =>
        obtain ⟨rfl, hrest⟩ := List.cons_prefix_cons.mp (hspec specs ▸ hprefix)
        exact ⟨rfl, specs, hrest⟩
    · rintro ⟨hallows, specs, hrest⟩
      cases kind with
      | beforeRun => cases hallows
      | afterSpec => cases hallows
      | beforeSpec => exact ⟨specs + 1, hspec specs ▸ List.cons_prefix_cons.mpr ⟨rfl, hrest⟩⟩
      | afterRun => exact ⟨0, hend ▸ List.cons_prefix_cons.mpr ⟨rfl, hrest⟩⟩

/-- **No event is out of order exactly if the events begin a run.** -/
theorem disorder_eq_zero_iff (phase : Phase) (events : List Event) :
    disorder phase events = 0 ↔
      ∃ specs, events.map Event.kind <+: mayStillCome phase specs := by
  induction events generalizing phase with
  | nil => exact ⟨fun _ => ⟨0, List.nil_prefix⟩, fun _ => rfl⟩
  | cons e rest ih =>
    rw [List.map_cons, cons_isPrefix_mayStillCome, ← ih, disorder]
    cases phase.allows e.kind <;> simp

/-! ## The end of the run -/

variable {σ : Type} (store : Store σ) (identity : Identity) (now : Timestamp)

/-- A line that reports the end of the run. -/
def ReportsEnd (line : List UInt8) : Prop :=
  ∃ cs details, Text.decodeUtf8 (Text.withoutLineEnd line) = .ok cs ∧
    Event.read (Text.trim cs) = .ok (.afterRun details)

theorem endsRun_read_iff (cs : List Char) :
    (LineContent.read cs).endsRun = true ↔
      ∃ details, Event.read (Text.trim cs) = .ok (.afterRun details) := by
  rw [LineContent.read]
  split
  · -- nothing at all is no event
    rename_i hempty
    rw [hempty]
    refine ⟨fun h => Bool.noConfusion h, ?_⟩
    rintro ⟨details, h⟩
    cases h
  · split
    · rename_i e hread
      rw [hread]
      cases e <;> simp [LineContent.endsRun, Event.kind]
    · rename_i hread
      rw [hread]
      refine ⟨fun h => Bool.noConfusion h, ?_⟩
      rintro ⟨details, h⟩
      cases h

/-- The lines of a text end the run where one of them reports it. -/
theorem any_endsRun_readable_iff {lines : List (List UInt8)}
    (h : ∀ line ∈ lines, (Text.decodeUtf8 (Text.withoutLineEnd line)).isOk = true) :
    (readable lines).any LineContent.endsRun = true ↔ ∃ line ∈ lines, ReportsEnd line := by
  induction lines with
  | nil => simp [readable]
  | cons line rest ih =>
    have hline := h line List.mem_cons_self
    have hrest := ih fun l hl => h l (List.mem_cons_of_mem _ hl)
    rw [readable]
    cases hd : Text.decodeUtf8 (Text.withoutLineEnd line) with
    | error fault =>
      rw [hd] at hline
      cases hline
    | ok cs =>
      have hreports : ReportsEnd line ↔ (LineContent.read cs).endsRun = true := by
        rw [endsRun_read_iff]
        simp [ReportsEnd, hd]
      simp only [List.any_cons, Bool.or_eq_true, List.exists_mem_cons_iff, hreports, hrest]

/-- A recorder knows of the end of the run when it was told, now or before. -/
theorem finished_recordAll (events : List Event) (c : Course σ) :
    (c.recordAll store identity now events).state.finished =
      (events.any (·.kind == .afterRun) || c.state.finished) := by
  induction events generalizing c with
  | nil => rfl
  | cons e rest ih =>
    have hfirst := (recordEvent_browser_finished store identity now e c.state c.store).2
    refine (ih (c.record store identity now e)).trans ?_
    show (_ || (recordEvent store identity now e c.state c.store).state.finished) = _
    rw [hfirst, List.any_cons]
    cases e.kind == .afterRun <;> cases rest.any (·.kind == .afterRun) <;> rfl

/-- The end of the run is among the events up to it. -/
theorem any_throughEnd (events : List Event) :
    (throughEnd events).any (·.kind == .afterRun) = events.any (·.kind == .afterRun) := by
  induction events with
  | nil => rfl
  | cons e rest ih =>
    rw [throughEnd]
    split
    · rename_i hkind
      simp [hkind]
    · rw [List.any_cons, List.any_cons, ih]

/-- The end of the run is among the events up to it once at most, and comes last. -/
theorem countP_throughEnd_le (events : List Event) :
    (throughEnd events).countP (·.kind = .afterRun) ≤ 1 := by
  induction events with
  | nil => exact Nat.zero_le _
  | cons e rest ih =>
    rw [throughEnd]
    by_cases hkind : e.kind = .afterRun
    · simp [hkind]
    · simpa [hkind] using ih

/-- **Replay recognizes the course of a run.** In the replay of a text with any store, the events
out of order are those that may not follow the one before them, and there is none exactly if the
events begin a run. The end of the run is dispatched once at most, and as the last event. For a
recorder that did not know of an end, it is dispatched exactly if the text reports it, and then the
counts and the recorder say so. -/
theorem replay_lifecycle (store : Store σ) (identity : Identity) (now : Timestamp)
    (stream : List UInt8) (r : RunState) (s : σ) (htext : IsText stream) :
    let events := dispatched stream
    let run := replay store identity now stream r s
    ∃ summary, run.1 = .ok summary ∧
      run.2.course = (Course.start r s).recordAll store identity now events ∧
      summary.outOfOrder = (followings (events.map Event.kind)).count false ∧
      (summary.outOfOrder = 0 ↔ ∃ specs, events.map Event.kind <+: lifecycle specs) ∧
      events.countP (·.kind = .afterRun) ≤ 1 ∧
      (∀ before e after, events = before ++ e :: after → e.kind = .afterRun → after = []) ∧
      (r.finished = false →
        [summary.finished = true, run.2.state.finished = true,
          ∃ line ∈ Text.lines stream, ReportsEnd line].TFAE) := by
  intro events run
  have hcourse : run.2.course = (Course.start r s).recordAll store identity now events :=
    replay_course store identity now stream r s
  have horder : run.2.summary.outOfOrder = disorder .awaitingRun events :=
    replay_outOfOrder store identity now stream r s
  have hbegins := disorder_eq_zero_iff .awaitingRun events
  refine ⟨run.2.summary, replay_of_isText store identity now r s htext, hcourse,
    horder.trans (disorder_eq_count events), horder ▸ hbegins, countP_throughEnd_le _, ?_, ?_⟩
  · intro before e after hevents hkind
    -- whatever follows an event that was dispatched shows that the event ended nothing
    by_contra hne
    have hsplit : events = (before ++ [e]) ++ after := by
      rw [hevents]
      simp
    exact kind_ne_afterRun_of_throughEnd hsplit hne e (by simp) hkind
  · intro hr
    -- the summary and the state are compared with the lines, not with each other
    have hreported := any_endsRun_readable_iff htext
    have hdispatched : events.any (·.kind == .afterRun) =
        (readable (Text.lines stream)).any LineContent.endsRun :=
      (any_throughEnd _).trans (any_endsRun _)
    have hsummary : run.2.summary.finished = true ↔
        (readable (Text.lines stream)).any LineContent.endsRun = true := by
      have haccounts := Replay.accounts_takeAll store identity now r s
        (readable (Text.lines stream))
      have hend : run.2 = _ := replay_snd_of_isText store identity now htext r s
      rw [hend, Replay.summary_close haccounts.finished]
      exact decide_eq_true_iff.trans haccounts.stands.ended
    have hstate : run.2.state.finished =
        (readable (Text.lines stream)).any LineContent.endsRun := by
      have hfinished : run.2.state.finished = _ := congrArg (fun c => c.state.finished) hcourse
      rw [hfinished, finished_recordAll, hdispatched]
      show (_ || r.finished) = _
      rw [hr, Bool.or_false]
    tfae_have 1 ↔ 3 := hsummary.trans hreported
    tfae_have 2 ↔ 3 := by
      rw [hstate]
      exact hreported
    tfae_finish

/-- A text in which a spec begins before the run does, the run is started twice, and its end is
reported twice. -/
def restartedStream : List UInt8 :=
  ("[\"before:spec\",[\"a.ts\"]]\n[\"before:run\",[[\"chrome\"]]]\nno event\n" ++
    "[\"before:run\",[[\"chrome\"]]]\n[\"after:run\"]\n[\"after:run\"]\n").toUTF8.data.toList

/-- The first three events of the sample may not follow what is before them; the end of the run is
dispatched once, and the recorder is told. -/
theorem replay_lifecycle_restartedStream :
    IsText restartedStream ∧ RunState.initial.finished = false ∧
      (replay Tables.store .sample ⟨0, 0⟩ restartedStream .initial .empty).1 =
        .ok ⟨4, 1, 1, 1, 3, 1, true⟩ ∧
      (followings ((dispatched restartedStream).map Event.kind)).count false = 3 ∧
      (∃ line ∈ Text.lines restartedStream, ReportsEnd line) ∧
      (replay Tables.store .sample ⟨0, 0⟩ restartedStream .initial .empty).2.state.finished = true := by
  have htext : IsText restartedStream := by decide +kernel
  have hcounts : (replay Tables.store .sample ⟨0, 0⟩ restartedStream .initial .empty).1.toOption =
      some ⟨4, 1, 1, 1, 3, 1, true⟩ := by decide +kernel
  obtain ⟨summary, hok, -, horder, -, -, -, hends⟩ :=
    replay_lifecycle Tables.store .sample ⟨0, 0⟩ restartedStream .initial .empty htext
  rw [hok] at hcounts
  obtain rfl : summary = ⟨4, 1, 1, 1, 3, 1, true⟩ := Option.some.inj hcounts
  exact ⟨htext, rfl, hok, horder.symm, ((hends rfl).out 0 2).mp rfl, ((hends rfl).out 0 1).mp rfl⟩

end RunJournal
