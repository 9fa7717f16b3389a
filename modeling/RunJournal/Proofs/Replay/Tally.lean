import RunJournal.Proofs.Replay.Accounting
import RunJournal.Proofs.Replay.Transport
import RunJournal.Proofs.Text.Page

/-!
# What a replay comes to

A replay of a text looks at its lines for two things: the events that they hold, in their order, and
how many lines hold no event and are not blank. Nothing else of the lines is in what the replay
returns (`replay_eq_ofEvents`).

For a page both can be read off the lines as they were sent, since white space at the ends of a line
changes neither (`LineContent.read_congr`). So whatever becomes of the ends of the lines on the way,
a replay of a page comes to what its lines say (`replay_page`).
-/

namespace RunJournal

/-! ## Events up to the end of the run -/

/-- Without an end of the run in front of them, events are recorded as they are on their own. -/
theorem throughEnd_append {xs : List Event} (h : ∀ e ∈ xs, e.kind ≠ .afterRun) (ys : List Event) :
    throughEnd (xs ++ ys) = xs ++ throughEnd ys := by
  induction xs with
  | nil => rfl
  | cons e rest ih =>
    obtain ⟨hfirst, hrest⟩ := List.forall_mem_cons.mp h
    rw [List.cons_append, throughEnd, if_neg hfirst, ih hrest, List.cons_append]

theorem throughEnd_eq_self {events : List Event} (h : ∀ e ∈ events, e.kind ≠ .afterRun) :
    throughEnd events = events := by
  have happend := throughEnd_append h []
  rwa [throughEnd, List.append_nil] at happend

/-- Nothing that comes after an end of the run is recorded. -/
theorem throughEnd_append_of_any {xs : List Event} (h : xs.any (·.kind == .afterRun) = true)
    (ys : List Event) : throughEnd (xs ++ ys) = throughEnd xs := by
  induction xs with
  | nil => cases h
  | cons e rest ih =>
    rw [List.cons_append, throughEnd, throughEnd]
    split
    · rfl
    · rename_i hkind
      have hrest : rest.any (·.kind == .afterRun) = true := by
        rw [List.any_cons, Bool.or_eq_true] at h
        exact h.resolve_left fun hfirst => hkind (eq_of_beq hfirst)
      rw [ih hrest]

/-! ## The fates of lines, from their events -/

/-- Whether a line holds no event and is not blank. -/
def LineContent.isMalformed : LineContent → Bool
  | .malformed => true
  | _ => false

theorem LineContent.kind_ne_afterRun_of_any {contents : List LineContent}
    (h : ¬ contents.any LineContent.endsRun = true) :
    ∀ e ∈ contents.filterMap LineContent.event?, e.kind ≠ .afterRun := by
  rw [← any_endsRun] at h
  intro e he hkind
  exact h (List.any_eq_true.mpr ⟨e, he, beq_iff_eq.mpr hkind⟩)

/-- The events that are recorded are those up to the end of the run. -/
theorem filterMap_event?_lineFates (contents : List LineContent) :
    (lineFates contents).filterMap LineFate.event? =
      throughEnd (contents.filterMap LineContent.event?) := by
  -- a line is judged by the lines before it, so they are taken from the end
  induction contents using List.reverseRecOn with
  | nil => rfl
  | append_singleton contents content ih =>
    rw [lineFates_concat, List.filterMap_append, List.filterMap_append, ih]
    cases content with
    | blank => exact (List.append_nil _).trans (congrArg throughEnd (List.append_nil _).symm)
    | malformed => exact (List.append_nil _).trans (congrArg throughEnd (List.append_nil _).symm)
    | event e =>
      show _ ++ [LineContent.fate contents (.event e)].filterMap _ = throughEnd (_ ++ [e])
      by_cases hended : contents.any LineContent.endsRun = true
      · rw [LineContent.fate, if_pos hended, throughEnd_append_of_any]
        · exact List.append_nil _
        · rwa [any_endsRun]
      · have hgoing := LineContent.kind_ne_afterRun_of_any hended
        have hlast : throughEnd [e] = [e] := by
          rw [throughEnd]
          split <;> rfl
        rw [LineContent.fate, if_neg hended, throughEnd_append hgoing, throughEnd_eq_self hgoing,
          hlast]
        rfl

/-- A line is malformed wherever it stands. -/
theorem countP_isMalformed_lineFates (contents : List LineContent) :
    (lineFates contents).countP LineFate.isMalformed =
      contents.countP LineContent.isMalformed := by
  induction contents using List.reverseRecOn with
  | nil => rfl
  | append_singleton contents content ih =>
    rw [lineFates_concat, List.countP_append, List.countP_append, ih]
    cases content with
    | blank => rfl
    | malformed => rfl
    | event e =>
      rw [LineContent.fate]
      split <;> rfl

/-- A line holds an event, or it is malformed, or it is blank. -/
theorem LineContent.length_add_countP (contents : List LineContent) :
    (contents.filterMap LineContent.event?).length + contents.countP LineContent.isMalformed =
      (contents.map LineContent.isBlank).count false := by
  induction contents with
  | nil => rfl
  | cons content rest ih =>
    rw [List.map_cons, List.count_cons, List.countP_cons, ← ih]
    cases content with
    | blank => rfl
    | malformed => rfl
    | event e =>
      rw [List.filterMap_cons_some (show LineContent.event? (.event e) = some e from rfl),
        List.length_cons]
      exact Nat.add_right_comm _ _ _

/-- The events after the end of the run are those that are left. -/
theorem countP_isLate_lineFates (contents : List LineContent) :
    (lineFates contents).countP LineFate.isLate =
      (contents.filterMap LineContent.event?).length -
        (throughEnd (contents.filterMap LineContent.event?)).length := by
  have hfates := countP_lineFates contents
  have hcontents := LineContent.length_add_countP contents
  rw [← length_event?_lineFates, filterMap_event?_lineFates, countP_isMalformed_lineFates,
    ← hcontents] at hfates
  omega

/-! ## The counts of a replay -/

/-- The counts of a replay of these events, of which so many fail, with so many lines between them
that hold no event. -/
def ReplaySummary.ofEvents (events : List Event) (failures malformed : Nat) : ReplaySummary where
  events := (throughEnd events).length
  specs := (throughEnd events).countP (·.kind = .beforeSpec)
  failedHooks := failures
  malformedLines := malformed
  outOfOrder := disorder .awaitingRun (throughEnd events)
  ignoredAfterRun := events.length - (throughEnd events).length
  finished := events.any (·.kind == .afterRun)

variable {σ : Type} (store : Store σ) (identity : Identity) (now : Timestamp)

/-- **A replay comes to its events** and to the number of its lines without one. -/
theorem replay_eq_ofEvents {stream : List UInt8} (htext : IsText stream) (r : RunState) (s : σ) :
    let contents := readable (Text.lines stream)
    let course := (Course.start r s).recordAll store identity now (dispatched stream)
    (replay store identity now stream r s).1 =
        .ok (.ofEvents (contents.filterMap LineContent.event?) course.failures
          (contents.countP LineContent.isMalformed)) ∧
      (replay store identity now stream r s).2.course = course := by
  intro contents course
  have haccounts := Replay.accounts_takeAll store identity now r s contents
  have hcourse : _ = course := replay_course store identity now stream r s
  have horder := replay_outOfOrder store identity now stream r s
  have hend := replay_snd_of_isText store identity now htext r s
  refine ⟨?_, hcourse⟩
  rw [hend, Replay.course_close] at hcourse
  rw [hend, Replay.outOfOrder_close] at horder
  have hfailures : _ = course.failures := congrArg Course.failures hcourse
  rw [replay_of_isText store identity now r s htext, hend,
    Replay.summary_close haccounts.finished]
  generalize (Replay.start r s).takeAll store identity now contents = p at *
  congr 1
  rw [ReplaySummary.ofEvents, ReplaySummary.mk.injEq]
  refine ⟨?_, ?_, hfailures, ?_, horder, ?_, ?_⟩
  · rw [haccounts.events, ← length_event?_lineFates, filterMap_event?_lineFates]
  · rw [haccounts.specs, filterMap_event?_lineFates]
  · rw [haccounts.malformed, countP_isMalformed_lineFates]
  · rw [haccounts.late, countP_isLate_lineFates]
  · rw [Bool.eq_iff_iff, decide_eq_true_iff, any_endsRun]
    exact haccounts.stands.ended

/-! ## Pages -/

/-- What the characters of a line come to does not depend on the white space around them. -/
theorem LineContent.read_congr {cs ds : List Char} (h : Text.trim cs = Text.trim ds) :
    LineContent.read cs = LineContent.read ds := by
  rw [LineContent.read, LineContent.read, h]

namespace Text.Page

variable (p : Page)

/-- The events that the lines of a page hold. -/
def events : List Event := (p.lines.map LineContent.read).filterMap LineContent.event?

/-- How many lines of a page hold no event and are not blank. -/
def malformed : Nat := (p.lines.map LineContent.read).countP LineContent.isMalformed

theorem isText_bytes : IsText p.bytes := by
  obtain ⟨texts, hreceive, -⟩ := p.exists_receive
  intro line hline
  have hmem : Text.decodeUtf8 (Text.withoutLineEnd line) ∈ Text.receive p.bytes :=
    List.mem_map_of_mem hline
  rw [hreceive] at hmem
  obtain ⟨cs, -, hcs⟩ := List.mem_map.mp hmem
  rw [← hcs]
  rfl

/-- The lines of a page that is received come to what those that were sent do. -/
theorem readable_bytes :
    (readable (Text.lines p.bytes)).filterMap LineContent.event? = p.events ∧
      (readable (Text.lines p.bytes)).countP LineContent.isMalformed = p.malformed := by
  obtain ⟨texts, hreceive, halike⟩ := p.exists_receive
  have hread : ∀ {xs ys}, Alike xs ys → xs.map LineContent.read = ys.map LineContent.read := by
    intro xs ys h
    induction h with
    | nil => rfl
    | cons htrim _ ih => rw [List.map_cons, List.map_cons, LineContent.read_congr htrim, ih]
  rw [readable_of_texts hreceive, events, malformed]
  rcases halike with halike | halike
  · rw [hread halike]
    exact ⟨rfl, rfl⟩
  · -- the line that is not received would be blank
    rw [← hread halike, List.map_append, List.filterMap_append, List.countP_append]
    exact ⟨(List.append_nil _).symm, rfl⟩

theorem dispatched_bytes : dispatched p.bytes = throughEnd p.events := by
  rw [dispatched, p.readable_bytes.1]

end Text.Page

/-- **A replay of a page comes to the events of its lines.** -/
theorem replay_page (p : Text.Page) (r : RunState) (s : σ) :
    let course := (Course.start r s).recordAll store identity now (throughEnd p.events)
    (replay store identity now p.bytes r s).1 =
        .ok (.ofEvents p.events course.failures p.malformed) ∧
      (replay store identity now p.bytes r s).2.course = course := by
  intro course
  obtain ⟨hok, hcourse⟩ := replay_eq_ofEvents store identity now p.isText_bytes r s
  rw [p.readable_bytes.1, p.readable_bytes.2, p.dispatched_bytes] at hok
  rw [p.dispatched_bytes] at hcourse
  exact ⟨hok, hcourse⟩

end RunJournal
