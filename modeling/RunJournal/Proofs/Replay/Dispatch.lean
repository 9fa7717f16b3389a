import RunJournal.Proofs.Recorder.Course
import RunJournal.Recorder.Replay

/-!
# What a replay dispatches

A replay does two things at once: it reads lines, and it records the events that they hold. Here
the two are taken apart.

- `readable` and `firstFault` are what the lines of a stream come to and where they stop being
  UTF-8. Neither depends on a recorder, so `replayLines_eq` splits every replay into reading, which
  may fail, and `Replay.takeAll`, which may not.
- `dispatched` are the events of a stream up to and including the first end of the run.
- What a replay does to its recorder, its store and its uploads is what `Course.recordAll` does
  with the dispatched events (`replay_course`), whatever stands between them.
- `disorder` counts the events that come at the wrong moment, from the events alone
  (`replay_outOfOrder`).
-/

namespace RunJournal

variable {σ : Type} (store : Store σ) (identity : Identity) (now : Timestamp)

/-! ## Lines -/

/-- The event that a line holds. -/
def LineContent.event? : LineContent → Option Event
  | .event e => some e
  | _ => none

/-- What the lines come to, up to the first that is not UTF-8. -/
def readable : List (List UInt8) → List LineContent
  | [] => []
  | line :: rest =>
    match Text.decodeUtf8 (Text.withoutLineEnd line) with
    | .error _ => []
    | .ok cs => .read cs :: readable rest

/-- The fault of the first line that is not UTF-8. -/
def firstFault : List (List UInt8) → Except Text.Utf8Fault Unit
  | [] => .ok ()
  | line :: rest =>
    match Text.decodeUtf8 (Text.withoutLineEnd line) with
    | .error fault => .error fault
    | .ok _ => firstFault rest

/-- Whether every line of a stream is UTF-8. -/
def IsText (stream : List UInt8) : Prop :=
  ∀ line ∈ Text.lines stream, (Text.decodeUtf8 (Text.withoutLineEnd line)).isOk = true

instance (stream : List UInt8) : Decidable (IsText stream) :=
  inferInstanceAs (Decidable (∀ line ∈ Text.lines stream, _ = true))

theorem firstFault_eq_ok {lines : List (List UInt8)}
    (h : ∀ line ∈ lines, (Text.decodeUtf8 (Text.withoutLineEnd line)).isOk = true) :
    firstFault lines = .ok () := by
  induction lines with
  | nil => rfl
  | cons line rest ih =>
    have hline := h line List.mem_cons_self
    have hrest := ih fun l hl => h l (List.mem_cons_of_mem _ hl)
    rw [firstFault]
    cases hd : Text.decodeUtf8 (Text.withoutLineEnd line) with
    | error fault =>
      rw [hd] at hline
      cases hline
    | ok cs => exact hrest

namespace Replay

/-- Takes what several lines come to, one after the other. -/
def takeAll (contents : List LineContent) (p : Replay σ) : Replay σ :=
  contents.foldl (fun p content => p.take store identity now content) p

end Replay

/-- A replay reads lines up to the first fault, and takes what it has read. -/
theorem replayLines_eq (lines : List (List UInt8)) (p : Replay σ) :
    replayLines store identity now lines p =
      (firstFault lines, p.takeAll store identity now (readable lines)) := by
  induction lines generalizing p with
  | nil => rfl
  | cons line rest ih =>
    rw [replayLines, firstFault, readable]
    cases Text.decodeUtf8 (Text.withoutLineEnd line) with
    | error fault => rfl
    | ok cs => exact ih _

/-! ## Events -/

/-- Events up to and including the first end of the run. -/
def throughEnd : List Event → List Event
  | [] => []
  | e :: rest => if e.kind = .afterRun then [e] else e :: throughEnd rest

/-- The events that a replay of `stream` records. -/
def dispatched (stream : List UInt8) : List Event :=
  throughEnd ((readable (Text.lines stream)).filterMap LineContent.event?)

/-- How many events come at a moment at which the course of a run does not allow them. -/
def disorder : Phase → List Event → Nat
  | _, [] => 0
  | phase, e :: rest =>
    (if phase.allows e.kind then 0 else 1) + disorder (Phase.after e.kind) rest

/-- No event but the last one is an end of the run. -/
theorem kind_ne_afterRun_of_throughEnd {events before after : List Event}
    (h : throughEnd events = before ++ after) (hne : after ≠ []) :
    ∀ e ∈ before, e.kind ≠ .afterRun := by
  induction events generalizing before with
  | nil =>
    have hnil := List.append_eq_nil_iff.mp h.symm
    exact absurd hnil.2 hne
  | cons e rest ih =>
    cases before with
    | nil => exact fun e he => absurd he List.not_mem_nil
    | cons b bs =>
      rw [throughEnd] at h
      split at h
      · -- the end of the run is the only event, so nothing can come after it
        injection h with _ hnil
        exact absurd (List.append_eq_nil_iff.mp hnil.symm).2 hne
      · rename_i hkind
        injection h with hhead htail
        subst hhead
        intro x hx
        rcases List.mem_cons.mp hx with rfl | hx
        · exact hkind
        · exact ih htail x hx

/-- The first lines come to the first of what all lines come to. -/
theorem readable_take (lines : List (List UInt8)) (n : Nat) :
    readable (lines.take n) = (readable lines).take n := by
  induction lines generalizing n with
  | nil => simp [readable]
  | cons line rest ih =>
    cases n with
    | zero => rfl
    | succ n =>
      rw [List.take_succ_cons, readable, readable]
      cases Text.decodeUtf8 (Text.withoutLineEnd line) with
      | error fault => rfl
      | ok cs => rw [List.take_succ_cons, ih]

/-- Fewer events have fewer events up to the end of the run. -/
theorem throughEnd_mono {xs ys : List Event} (h : xs <+: ys) :
    throughEnd xs <+: throughEnd ys := by
  induction xs generalizing ys with
  | nil => exact List.nil_prefix
  | cons e rest ih =>
    obtain ⟨tail, rfl⟩ := h
    rw [List.cons_append, throughEnd, throughEnd]
    split
    · exact List.prefix_refl _
    · exact List.cons_prefix_cons.mpr ⟨rfl, ih (List.prefix_append rest tail)⟩

/-- Every number of dispatched events is that of some number of lines. -/
theorem exists_take_throughEnd {contents : List LineContent} {before : List Event}
    (h : before <+: throughEnd (contents.filterMap LineContent.event?)) :
    ∃ n, throughEnd ((contents.take n).filterMap LineContent.event?) = before := by
  -- line by line: one without an event adds nothing, and none counts after the end
  induction contents generalizing before with
  | nil => exact ⟨0, (List.prefix_nil.mp h).symm⟩
  | cons content rest ih =>
    cases hc : content.event? with
    | none =>
      rw [List.filterMap_cons_none hc] at h
      obtain ⟨n, hn⟩ := ih h
      refine ⟨n + 1, ?_⟩
      rw [List.take_succ_cons, List.filterMap_cons_none hc]
      exact hn
    | some e =>
      rw [List.filterMap_cons_some hc, throughEnd] at h
      cases before with
      | nil => exact ⟨0, rfl⟩
      | cons b bs =>
        split at h
        · rename_i hkind
          obtain ⟨rfl, hbs⟩ := List.cons_prefix_cons.mp h
          refine ⟨1, ?_⟩
          rw [List.take_succ_cons, List.filterMap_cons_some hc, throughEnd, if_pos hkind,
            List.prefix_nil.mp hbs]
        · rename_i hkind
          obtain ⟨rfl, hbs⟩ := List.cons_prefix_cons.mp h
          obtain ⟨n, hn⟩ := ih hbs
          refine ⟨n + 1, ?_⟩
          rw [List.take_succ_cons, List.filterMap_cons_some hc, throughEnd, if_neg hkind, hn]

/-! ## Replays -/

namespace Replay

/-- What a replay has done so far, apart from reading. -/
def course (p : Replay σ) : Course σ := ⟨p.state, p.store, p.uploads, p.summary.failedHooks⟩

/-- An event is recorded unless the run is over, whether or not it comes in order. -/
theorem course_take_event {p : Replay σ} (h : p.phase ≠ .finished) (e : Event) :
    (p.take store identity now (.event e)).course = p.course.record store identity now e := by
  simp only [take, if_neg h, checkOrder]
  split
  · rfl
  · rfl

theorem phase_take_event {p : Replay σ} (h : p.phase ≠ .finished) (e : Event) :
    (p.take store identity now (.event e)).phase = Phase.after e.kind := by
  simp only [take, if_neg h]
  rfl

theorem outOfOrder_take_event {p : Replay σ} (h : p.phase ≠ .finished) (e : Event) :
    (p.take store identity now (.event e)).summary.outOfOrder =
      p.summary.outOfOrder + (if p.phase.allows e.kind then 0 else 1) := by
  simp only [take, if_neg h, checkOrder]
  split
  · rfl
  · rfl

/-- What the phase, the recorder and the order of events come to, apart from the lines read. -/
def standing (p : Replay σ) : Phase × Nat × Course σ := (p.phase, p.summary.outOfOrder, p.course)

/-- A line without an event is only counted. -/
theorem standing_take_of_event?_eq_none (p : Replay σ) {content : LineContent}
    (h : content.event? = none) :
    (p.take store identity now content).standing = p.standing := by
  cases content with
  | blank => rfl
  | malformed => rfl
  | event e => cases h

/-- After the end of the run everything is only counted. -/
theorem standing_take_of_finished {p : Replay σ} (h : p.phase = .finished)
    (content : LineContent) : (p.take store identity now content).standing = p.standing := by
  cases content with
  | blank => rfl
  | malformed => rfl
  | event e =>
    simp only [take, if_pos h]
    rfl

theorem standing_takeAll_of_finished {p : Replay σ} (h : p.phase = .finished)
    (contents : List LineContent) :
    (p.takeAll store identity now contents).standing = p.standing := by
  induction contents generalizing p with
  | nil => rfl
  | cons content rest ih =>
    have hstep := standing_take_of_finished store identity now h content
    have hphase : (p.take store identity now content).phase = .finished := by
      rw [← h]
      exact congrArg Prod.fst hstep
    exact (ih hphase).trans hstep

/-- **Lines do to a recorder what their events do**, up to the end of the run; and the events alone
say which of them come out of order. -/
theorem takeAll_eq_recordAll (contents : List LineContent) {p : Replay σ}
    (h : p.phase ≠ .finished) :
    (p.takeAll store identity now contents).course =
        p.course.recordAll store identity now
          (throughEnd (contents.filterMap LineContent.event?)) ∧
      (p.takeAll store identity now contents).summary.outOfOrder =
        p.summary.outOfOrder +
          disorder p.phase (throughEnd (contents.filterMap LineContent.event?)) := by
  -- the replay is at any point of a run that has not ended, so its phase is general
  induction contents generalizing p with
  | nil => exact ⟨rfl, rfl⟩
  | cons content rest ih =>
    show ((p.take store identity now content).takeAll store identity now rest).course = _ ∧
      ((p.take store identity now content).takeAll store identity now rest).summary.outOfOrder = _
    cases hc : content.event? with
    | none =>
      have hsame := standing_take_of_event?_eq_none store identity now p hc
      have hphase : (p.take store identity now content).phase = p.phase :=
        congrArg Prod.fst hsame
      have horder : (p.take store identity now content).summary.outOfOrder =
          p.summary.outOfOrder := congrArg (fun x => x.2.1) hsame
      have hcourse : (p.take store identity now content).course = p.course :=
        congrArg (fun x => x.2.2) hsame
      have hrest := ih (p := p.take store identity now content) (by rw [hphase]; exact h)
      rw [hcourse, horder, hphase] at hrest
      rw [List.filterMap_cons_none hc]
      exact hrest
    | some e =>
      have hevent : content = .event e := by
        cases content with
        | blank => cases hc
        | malformed => cases hc
        | event e' =>
          cases hc
          rfl
      subst hevent
      rw [List.filterMap_cons_some hc, throughEnd]
      have hphase := phase_take_event store identity now h e
      have hcourse := course_take_event store identity now h e
      have horder := outOfOrder_take_event store identity now h e
      split
      · -- the run is over: nothing that follows is recorded
        rename_i hkind
        have hfinished : (p.take store identity now (.event e)).phase = .finished := by
          rw [hphase, hkind]
          rfl
        have hrest := standing_takeAll_of_finished store identity now hfinished rest
        have hrestCourse := congrArg (fun x => x.2.2) hrest
        have hrestOrder := congrArg (fun x => x.2.1) hrest
        exact ⟨hrestCourse.trans hcourse, hrestOrder.trans horder⟩
      · rename_i hkind
        have hgoing : (p.take store identity now (.event e)).phase ≠ .finished := by
          rw [hphase]
          cases e with
          | afterRun details => exact absurd rfl hkind
          | beforeRun browser => exact fun hc => Phase.noConfusion hc
          | beforeSpec spec => exact fun hc => Phase.noConfusion hc
          | afterSpec spec results => exact fun hc => Phase.noConfusion hc
        have hrest := ih hgoing
        rw [hcourse, horder, hphase] at hrest
        exact ⟨hrest.1, by rw [hrest.2, disorder, Nat.add_assoc]⟩

@[simp] theorem course_close (p : Replay σ) : p.close.course = p.course := by
  rw [close]
  split
  · rfl
  · rfl

@[simp] theorem outOfOrder_close (p : Replay σ) :
    p.close.summary.outOfOrder = p.summary.outOfOrder := by
  rw [close]
  split
  · rfl
  · rfl

end Replay

/-! ## Whole replays -/

variable (stream : List UInt8) (r : RunState) (s : σ)

/-- A replay of a stream, split into reading and recording. -/
theorem replay_eq :
    replay store identity now stream r s =
      match firstFault (Text.lines stream) with
      | .error fault =>
        (.error fault,
          (Replay.start r s).takeAll store identity now (readable (Text.lines stream)))
      | .ok _ =>
        let p := (Replay.start r s).takeAll store identity now (readable (Text.lines stream))
        (.ok p.close.summary, p.close) := by
  rw [replay, replayLines_eq]
  cases firstFault (Text.lines stream) with
  | error fault => rfl
  | ok _ => rfl

/-- What a replay does to its recorder, its store and its uploads is what the dispatched events do,
also where the stream breaks. -/
theorem replay_course :
    (replay store identity now stream r s).2.course =
      (Course.start r s).recordAll store identity now (dispatched stream) := by
  have h := (Replay.takeAll_eq_recordAll store identity now (readable (Text.lines stream))
    (p := Replay.start r s) (fun hc => Phase.noConfusion hc)).1
  rw [replay_eq]
  cases firstFault (Text.lines stream) with
  | error fault => exact h
  | ok _ => exact (Replay.course_close _).trans h

/-- The events that come out of order are those that the dispatched events alone show to. -/
theorem replay_outOfOrder :
    (replay store identity now stream r s).2.summary.outOfOrder =
      disorder .awaitingRun (dispatched stream) := by
  have h := (Replay.takeAll_eq_recordAll store identity now (readable (Text.lines stream))
    (p := Replay.start r s) (fun hc => Phase.noConfusion hc)).2
  rw [Replay.start, ReplaySummary.zero, Nat.zero_add] at h
  rw [replay_eq]
  cases firstFault (Text.lines stream) with
  | error fault => exact h
  | ok _ => exact (Replay.outOfOrder_close _).trans h

/-- The replay of a text returns its counts. -/
theorem replay_of_isText {stream : List UInt8} (h : IsText stream) :
    (replay store identity now stream r s).1 =
      .ok (replay store identity now stream r s).2.summary := by
  rw [replay_eq, firstFault_eq_ok h]

end RunJournal
