import Mathlib.Data.List.Induction
import Mathlib.Data.List.ReduceOption
import RunJournal.Proofs.Replay.Dispatch
import RunJournal.Store.Tables

/-!
# Every line is accounted for

A replay does one of four things with a line, and which one it is can be read off the line and the
lines before it (`LineContent.fate`): a blank line is skipped, a line without an event is counted as
malformed, an event after the end of the run is counted as ignored, and every other event is
recorded.

- `Replay.Accounts` ties everything that a replay has counted and noted so far to the fates of the
  lines that it has read. `Replay.Accounts.take` carries it over one line, and `accounts_takeAll`
  over any number of them.
- `hookReports` are what the recorded events did, one report for each. A replay adds nothing of its
  own to them but its warnings (`lineWarnings`), of which each names the line it is about.
- `replay_accounts` puts both together for the replay of a whole text.
-/

namespace RunJournal

variable {σ : Type} (store : Store σ) (identity : Identity) (now : Timestamp)

/-! ## Elements and what stands before them -/

section Past

variable {α β : Type}

/-- Applies `f` to every element together with the elements before it. -/
def mapPast (f : List α → α → β) (l : List α) : List β := l.mapIdx fun i a => f (l.take i) a

variable (f : List α → α → β)

@[simp] theorem length_mapPast (l : List α) : (mapPast f l).length = l.length := by
  rw [mapPast, List.length_mapIdx]

/-- What stands before an element does not change with what is added at the end. -/
theorem mapPast_concat (l : List α) (a : α) : mapPast f (l ++ [a]) = mapPast f l ++ [f l a] := by
  rw [mapPast, List.mapIdx_concat, List.take_left']
  · congr 1
    refine List.ext_getElem (by simp [mapPast]) fun i hi _ => ?_
    have hle : i ≤ l.length := by
      rw [List.length_mapIdx] at hi
      omega
    simp only [mapPast, List.getElem_mapIdx, List.take_append_of_le_length hle]
  · rfl

end Past

/-! ## What becomes of a line -/

/-- What becomes of a line. -/
inductive LineFate where
  /-- It is blank. -/
  | skipped
  /-- It holds no event. -/
  | malformed
  /-- It holds an event that comes after the end of the run. -/
  | late (kind : EventKind)
  /-- It holds an event that is recorded or fails to be. -/
  | dispatched (e : Event)

namespace LineFate

def isMalformed : LineFate → Bool
  | malformed => true
  | _ => false

def isLate : LineFate → Bool
  | late _ => true
  | _ => false

def isDispatched : LineFate → Bool
  | dispatched _ => true
  | _ => false

/-- The event that is recorded, if one is. -/
def event? : LineFate → Option Event
  | dispatched e => some e
  | _ => none

end LineFate

/-- Whether a line reports the end of the run. -/
def LineContent.endsRun : LineContent → Bool
  | .event e => e.kind == .afterRun
  | _ => false

/-- What becomes of a line that stands after the lines `before`. -/
def LineContent.fate (before : List LineContent) : LineContent → LineFate
  | .blank => .skipped
  | .malformed => .malformed
  | .event e => if before.any LineContent.endsRun then .late e.kind else .dispatched e

/-- What becomes of the lines of a stream. -/
def lineFates (contents : List LineContent) : List LineFate := mapPast LineContent.fate contents

/-- Where events leave a run. -/
def Phase.afterAll (events : List Event) : Phase :=
  match events.getLast? with
  | none => .awaitingRun
  | some e => Phase.after e.kind

/-- Only the end of a run leaves it finished. -/
theorem Phase.after_eq_finished_iff {kind : EventKind} :
    Phase.after kind = .finished ↔ kind = .afterRun := by
  cases kind <;> simp [Phase.after]

/-- The warning that a replay gives about a line that stands after the lines `before`. -/
def LineContent.warning? (before : List LineContent) (content : LineContent) : Option Notice :=
  match content.fate before with
  | .skipped => none
  | .malformed => some (.malformedLine (before.length + 1))
  | .late kind => some (.lateEvent (before.length + 1) kind)
  | .dispatched e =>
    let phase := Phase.afterAll (before.filterMap LineContent.event?)
    if phase.allows e.kind then none else some (.outOfOrder (before.length + 1) e.kind phase)

/-- The warnings that a replay gives about lines. -/
def lineWarnings (contents : List LineContent) : List Notice :=
  (mapPast LineContent.warning? contents).reduceOption

/-- The line that a warning is about. -/
def Notice.line? : Notice → Option Nat
  | .malformedLine line => some line
  | .lateEvent line _ => some line
  | .outOfOrder line _ _ => some line
  | _ => none

/-- Whether a notice is about the stream and not about what is recorded. -/
def Notice.isAboutStream : Notice → Bool
  | .hookFailed _ _ => false
  | .specMismatch _ _ => false
  | .unreachable _ => false
  | _ => true

/-- A line that comes last has a fate that depends on the lines before it. -/
theorem lineFates_concat (contents : List LineContent) (content : LineContent) :
    lineFates (contents ++ [content]) = lineFates contents ++ [content.fate contents] :=
  mapPast_concat LineContent.fate contents content

theorem lineWarnings_concat (contents : List LineContent) (content : LineContent) :
    lineWarnings (contents ++ [content]) =
      lineWarnings contents ++ (content.warning? contents).toList := by
  rw [lineWarnings, mapPast_concat, List.reduceOption_append]
  cases content.warning? contents <;> rfl

/-- A warning is about the line that it is given for. -/
theorem LineContent.line?_of_warning? {before : List LineContent} {content : LineContent}
    {warning : Notice} (h : content.warning? before = some warning) :
    warning.line? = some (before.length + 1) := by
  unfold warning? at h
  split at h
  · cases h
  · cases h
    rfl
  · cases h
    rfl
  · dsimp only at h
    split at h
    · cases h
    · cases h
      rfl

/-- Only warnings about the stream are about a line. -/
theorem Notice.isAboutStream_of_line? {notice : Notice} {line : Nat}
    (h : notice.line? = some line) : notice.isAboutStream = true := by
  cases notice with
  | malformedLine _ => rfl
  | lateEvent _ _ => rfl
  | outOfOrder _ _ _ => rfl
  | hookFailed _ _ => cases h
  | specMismatch _ _ => cases h
  | unfinished _ => cases h
  | unreachable _ => cases h

/-- The warnings come in the order of their lines, at most one for each line. -/
theorem lines_lineWarnings_sublist (contents : List LineContent) :
    ((lineWarnings contents).filterMap Notice.line?).Sublist (List.range' 1 contents.length) := by
  induction contents using List.reverseRecOn with
  | nil => exact List.Sublist.refl []
  | append_singleton contents content ih =>
    rw [lineWarnings_concat, List.filterMap_append, List.length_append, List.length_singleton,
      List.range'_concat, Nat.one_mul, Nat.add_comm 1]
    refine ih.append ?_
    cases hw : content.warning? contents with
    | none => exact List.nil_sublist _
    | some warning =>
      rw [Option.toList_some, List.filterMap_cons_some (LineContent.line?_of_warning? hw)]
      exact List.Sublist.refl _

/-- The numbers of the lines that warnings are about increase. -/
theorem pairwise_lines_lineWarnings (contents : List LineContent) :
    ((lineWarnings contents).filterMap Notice.line?).Pairwise (· < ·) :=
  List.Pairwise.sublist (lines_lineWarnings_sublist contents) (List.pairwise_lt_range' 1)

/-! ## The events among the lines -/

/-- The events that end the run are those of the lines that do. -/
theorem any_endsRun (contents : List LineContent) :
    (contents.filterMap LineContent.event?).any (·.kind == .afterRun) =
      contents.any LineContent.endsRun := by
  induction contents with
  | nil => rfl
  | cons content rest ih =>
    cases content with
    | blank => exact ih
    | malformed => exact ih
    | event e =>
      rw [List.filterMap_cons_some (show LineContent.event? (.event e) = some e from rfl),
        List.any_cons, List.any_cons, ih]
      rfl

/-! ## What the recorded events do -/

/-- The reports of events that are recorded one after the other. -/
def hookReports : List Event → RunState → σ → List (HookReport σ)
  | [], _, _ => []
  | e :: rest, r, s =>
    let report := recordEvent store identity now e r s
    report :: hookReports rest report.state report.store

/-- There is one report for each event. -/
theorem length_hookReports (events : List Event) (r : RunState) (s : σ) :
    (hookReports store identity now events r s).length = events.length := by
  induction events generalizing r s with
  | nil => rfl
  | cons e rest ih => exact congrArg (· + 1) (ih _ _)

/-- The reports of a second part are made from where the first part ended. -/
theorem hookReports_append (xs ys : List Event) (c : Course σ) :
    hookReports store identity now (xs ++ ys) c.state c.store =
      hookReports store identity now xs c.state c.store ++
        hookReports store identity now ys (c.recordAll store identity now xs).state
          (c.recordAll store identity now xs).store := by
  induction xs generalizing c with
  | nil => rfl
  | cons e rest ih =>
    have hrest := ih (c.record store identity now e)
    exact congrArg (recordEvent store identity now e c.state c.store :: ·) hrest

/-- The failures of a course are the reports that say so. -/
theorem failures_recordAll (events : List Event) (c : Course σ) :
    (c.recordAll store identity now events).failures = c.failures +
      (hookReports store identity now events c.state c.store).countP (·.outcome = .failed) := by
  induction events generalizing c with
  | nil => rfl
  | cons e rest ih =>
    have hrest := ih (c.record store identity now e)
    have hfirst : (c.record store identity now e).failures = c.failures +
        (if (recordEvent store identity now e c.state c.store).outcome = .failed then 1 else 0) :=
      rfl
    refine hrest.trans ?_
    rw [hfirst, hookReports, List.countP_cons, Nat.add_right_comm, Nat.add_assoc]
    simp only [decide_eq_true_eq]
    rfl

/-- What an event says about itself is not about the stream. -/
theorem isAboutStream_of_mem_notices {e : Event} {r : RunState} {s : σ} {notice : Notice}
    (h : notice ∈ (recordEvent store identity now e r s).notices) :
    notice.isAboutStream = false := by
  -- hooks give two kinds of notices, of a failure and of a spec that is not the one that began
  have hfailure : ∀ kind result, notice ∈ failureNotice kind result →
      notice.isAboutStream = false := by
    intro kind result hmem
    cases result with
    | ok _ => cases hmem
    | error cause =>
      cases List.mem_singleton.mp hmem
      rfl
  have hmismatch : ∀ started ended, notice ∈ mismatchNotice started ended →
      notice.isAboutStream = false := by
    intro started ended hmem
    rw [mismatchNotice] at hmem
    split at hmem
    · cases hmem
    · cases List.mem_singleton.mp hmem
      rfl
  cases e with
  | beforeRun browser =>
    simp only [recordEvent, beforeRun] at h
    split at h
    · exact hfailure .beforeRun (.error _) h
    · split at h
      · exact hfailure .beforeRun (.error _) h
      · cases h
  | beforeSpec name =>
    simp only [recordEvent, beforeSpec] at h
    split at h
    · exact hfailure .beforeSpec (.error _) h
    · split at h
      · exact hfailure .beforeSpec (.error _) h
      · cases h
  | afterSpec name results =>
    simp only [recordEvent, afterSpec] at h
    split at h
    · exact hfailure .afterSpec (.error _) h
    · split at h
      · rcases List.mem_append.mp h with hmem | hmem
        · exact hmismatch _ _ hmem
        · exact hfailure .afterSpec (.error _) hmem
      · rcases List.mem_append.mp h with hmem | hmem
        · exact hmismatch _ _ hmem
        · exact hfailure .afterSpec _ hmem
  | afterRun details =>
    obtain ⟨result, -, hmem⟩ := List.mem_flatMap.mp h
    exact hfailure .afterRun result hmem

/-- No notice of a hook is about the stream. -/
theorem isAboutStream_of_mem_hookReports {events : List Event} {r : RunState} {s : σ}
    {notice : Notice}
    (h : notice ∈ (hookReports store identity now events r s).flatMap HookReport.notices) :
    notice.isAboutStream = false := by
  induction events generalizing r s with
  | nil => cases h
  | cons e rest ih =>
    rw [hookReports, List.flatMap_cons] at h
    rcases List.mem_append.mp h with hfirst | hrest
    · exact isAboutStream_of_mem_notices store identity now hfirst
    · exact ih hrest

/-! ## One line -/

namespace Replay

/-- What a replay does with a line whose fate is `fate`, giving the warning `warning` if any. -/
structure Takes (fate : LineFate) (warning : Option Notice) (p p' : Replay σ) : Prop where
  lines : p'.lines = p.lines + 1
  phase : p'.phase = (fate.event?.map fun e => Phase.after e.kind).getD p.phase
  course : p'.course = p.course.recordAll store identity now fate.event?.toList
  events : p'.summary.events = p.summary.events + fate.isDispatched.toNat
  specs : p'.summary.specs =
    p.summary.specs + fate.event?.toList.countP (·.kind = .beforeSpec)
  malformed : p'.summary.malformedLines = p.summary.malformedLines + fate.isMalformed.toNat
  late : p'.summary.ignoredAfterRun = p.summary.ignoredAfterRun + fate.isLate.toNat
  finished : p'.summary.finished = p.summary.finished
  warned : p'.summary.malformedLines + p'.summary.ignoredAfterRun + p'.summary.outOfOrder =
    p.summary.malformedLines + p.summary.ignoredAfterRun + p.summary.outOfOrder +
      warning.toList.length
  notices : p'.notices = p.notices ++ warning.toList ++
    (hookReports store identity now fate.event?.toList p.state p.store).flatMap HookReport.notices

/-- Where a replay stands after the lines `before`. -/
structure StandsAfter (before : List LineContent) (p : Replay σ) : Prop where
  lines : p.lines = before.length
  ended : p.phase = .finished ↔ before.any LineContent.endsRun = true
  phase : before.any LineContent.endsRun = false →
    p.phase = Phase.afterAll (before.filterMap LineContent.event?)

variable {before : List LineContent} {p : Replay σ}

/-- **One line has one fate**, and the replay does with it what that fate says. -/
theorem StandsAfter.takes (h : p.StandsAfter before) (content : LineContent) :
    Takes store identity now (content.fate before) (content.warning? before) p
      (p.take store identity now content) := by
  cases content with
  | blank =>
    refine ⟨rfl, rfl, rfl, rfl, rfl, rfl, rfl, rfl, rfl, ?_⟩
    show p.notices = p.notices ++ [] ++ []
    rw [List.append_nil, List.append_nil]
  | malformed =>
    have hwarning : LineContent.warning? before .malformed =
        some (.malformedLine (p.lines + 1)) := by
      rw [h.lines]
      rfl
    rw [hwarning]
    refine ⟨rfl, rfl, rfl, rfl, rfl, rfl, rfl, rfl, ?_, ?_⟩
    · simp only [take, Option.toList_some, List.length_singleton]
      omega
    · exact (List.append_nil _).symm
  | event e =>
    by_cases hphase : p.phase = .finished
    · -- an event after the end of the run is only counted
      have hended := h.ended.mp hphase
      have hfate : LineContent.fate before (.event e) = .late e.kind := by
        rw [LineContent.fate, if_pos hended]
      have hwarning : LineContent.warning? before (.event e) =
          some (.lateEvent (p.lines + 1) e.kind) := by
        simp only [LineContent.warning?, hfate, h.lines]
      rw [hfate, hwarning, take, if_pos hphase]
      refine ⟨rfl, rfl, rfl, rfl, rfl, rfl, rfl, rfl, ?_, ?_⟩
      · simp only [Option.toList_some, List.length_singleton]
        omega
      · exact (List.append_nil _).symm
    · have hgoing : before.any LineContent.endsRun = false :=
        Bool.eq_false_iff.mpr fun hc => hphase (h.ended.mpr hc)
      have hfate : LineContent.fate before (.event e) = .dispatched e := by
        rw [LineContent.fate, hgoing]
        rfl
      have hwarning : LineContent.warning? before (.event e) =
          if p.phase.allows e.kind then none
          else some (.outOfOrder (p.lines + 1) e.kind p.phase) := by
        simp only [LineContent.warning?, hfate, h.lines, h.phase hgoing]
      rw [hfate, hwarning, take, if_neg hphase, checkOrder]
      have hspecs : (if e.kind = .beforeSpec then 1 else 0) =
          [e].countP (·.kind = .beforeSpec) := by
        simp [List.countP_cons]
      by_cases hallows : p.phase.allows e.kind = true
      · rw [if_pos hallows, if_pos hallows]
        refine ⟨rfl, rfl, rfl, rfl, congrArg (p.summary.specs + ·) hspecs, rfl, rfl, rfl, rfl, ?_⟩
        show p.notices ++ _ = p.notices ++ [] ++ (_ ++ [])
        rw [List.append_nil, List.append_nil]
      · rw [if_neg hallows, if_neg hallows]
        refine ⟨rfl, rfl, rfl, rfl, congrArg (p.summary.specs + ·) hspecs, rfl, rfl, rfl, rfl, ?_⟩
        show p.notices ++ [_] ++ _ = p.notices ++ [_] ++ (_ ++ [])
        rw [List.append_nil]
        rfl

variable {store identity now}

/-- Where a replay stands moves on with every line. -/
theorem StandsAfter.take (h : p.StandsAfter before) (content : LineContent) :
    (p.take store identity now content).StandsAfter (before ++ [content]) := by
  have htakes := h.takes store identity now content
  have hlines : (p.take store identity now content).lines = (before ++ [content]).length := by
    rw [htakes.lines, h.lines, List.length_append, List.length_singleton]
  refine ⟨hlines, ?_, ?_⟩
  · rw [htakes.phase, List.any_append, Bool.or_eq_true]
    -- lines without an event leave the phase as it is
    have hnoEvent : p.phase = .finished ↔
        before.any LineContent.endsRun = true ∨ false = true :=
      h.ended.trans (by simp)
    cases content with
    | blank => exact hnoEvent
    | malformed => exact hnoEvent
    | event e =>
      by_cases hended : before.any LineContent.endsRun = true
      · rw [LineContent.fate, if_pos hended]
        exact ⟨fun _ => Or.inl hended, fun _ => h.ended.mpr hended⟩
      · rw [LineContent.fate, if_neg hended]
        show Phase.after e.kind = .finished ↔ _
        rw [Phase.after_eq_finished_iff]
        simp [LineContent.endsRun, hended]
  -- as long as the run goes on, the phase is that of the last event
  · intro hgoing
    rw [List.any_append, Bool.or_eq_false_iff] at hgoing
    have hbefore := h.phase hgoing.1
    rw [htakes.phase, List.filterMap_append]
    cases content with
    | blank => exact hbefore.trans (congrArg Phase.afterAll (List.append_nil _).symm)
    | malformed => exact hbefore.trans (congrArg Phase.afterAll (List.append_nil _).symm)
    | event e =>
      rw [LineContent.fate, hgoing.1]
      show Phase.after e.kind = Phase.afterAll (_ ++ [e])
      rw [Phase.afterAll, List.getLast?_concat]

/-! ## All lines -/

/-- What a replay that began with the recorder `r` and the store `s` has counted and noted after
the lines `contents`. -/
structure Accounts (store : Store σ) (identity : Identity) (now : Timestamp) (r : RunState) (s : σ)
    (contents : List LineContent) (p : Replay σ) : Prop where
  stands : p.StandsAfter contents
  course : p.course = (Course.start r s).recordAll store identity now
    ((lineFates contents).filterMap LineFate.event?)
  events : p.summary.events = (lineFates contents).countP LineFate.isDispatched
  specs : p.summary.specs =
    ((lineFates contents).filterMap LineFate.event?).countP (·.kind = .beforeSpec)
  malformed : p.summary.malformedLines = (lineFates contents).countP LineFate.isMalformed
  late : p.summary.ignoredAfterRun = (lineFates contents).countP LineFate.isLate
  finished : p.summary.finished = false
  warned : p.summary.malformedLines + p.summary.ignoredAfterRun + p.summary.outOfOrder =
    (lineWarnings contents).length
  warnings : p.notices.filter Notice.isAboutStream = lineWarnings contents
  hookNotices : p.notices.filter (fun n => !n.isAboutStream) =
    (hookReports store identity now ((lineFates contents).filterMap LineFate.event?) r s).flatMap
      HookReport.notices

variable {r : RunState} {s : σ} {contents : List LineContent}

variable (store identity now r s) in
theorem accounts_start : (start r s).Accounts store identity now r s [] :=
  ⟨⟨rfl, ⟨fun h => Phase.noConfusion h, fun h => Bool.noConfusion h⟩, fun _ => rfl⟩,
    rfl, rfl, rfl, rfl, rfl, rfl, rfl, rfl, rfl⟩

/-- The account is carried on with every line. -/
theorem Accounts.take (h : p.Accounts store identity now r s contents) (content : LineContent) :
    (p.take store identity now content).Accounts store identity now r s
      (contents ++ [content]) := by
  have htakes := h.stands.takes store identity now content
  have hstate : p.state = p.course.state := rfl
  have hstore : p.store = p.course.store := rfl
  have hevents : (lineFates (contents ++ [content])).filterMap LineFate.event? =
      (lineFates contents).filterMap LineFate.event? ++
        (content.fate contents).event?.toList := by
    rw [lineFates_concat, List.filterMap_append]
    cases (content.fate contents) <;> rfl
  -- the warning of the line is about the stream, and what its event says is not
  have hwarning : ∀ n ∈ (content.warning? contents).toList, n.isAboutStream = true := fun n hn =>
    Notice.isAboutStream_of_line? (LineContent.line?_of_warning? (Option.mem_toList.mp hn))
  have hreports : ∀ n ∈ (hookReports store identity now (content.fate contents).event?.toList
      p.state p.store).flatMap HookReport.notices, n.isAboutStream = false := fun n hn =>
    isAboutStream_of_mem_hookReports store identity now hn
  refine ⟨h.stands.take content, ?_, ?_, ?_, ?_, ?_, ?_, ?_, ?_, ?_⟩
  · rw [htakes.course, h.course, hevents, Course.recordAll_append]
  · rw [htakes.events, h.events, lineFates_concat, List.countP_append, List.countP_singleton]
    cases content.fate contents <;> rfl
  · rw [htakes.specs, h.specs, hevents, List.countP_append]
  · rw [htakes.malformed, h.malformed, lineFates_concat, List.countP_append, List.countP_singleton]
    cases content.fate contents <;> rfl
  · rw [htakes.late, h.late, lineFates_concat, List.countP_append, List.countP_singleton]
    cases content.fate contents <;> rfl
  · rw [htakes.finished, h.finished]
  · rw [htakes.warned, h.warned, lineWarnings_concat, List.length_append]
  · have hnone := List.filter_eq_nil_iff.mpr fun n hn => Bool.eq_false_iff.mp (hreports n hn)
    rw [htakes.notices, List.filter_append, List.filter_append, h.warnings,
      List.filter_eq_self.mpr hwarning, hnone, List.append_nil, lineWarnings_concat]
  · have hnone : (content.warning? contents).toList.filter (fun n => !n.isAboutStream) = [] :=
      List.filter_eq_nil_iff.mpr fun n hn => by simp [hwarning n hn]
    have hall := List.filter_eq_self.mpr fun n hn =>
      congrArg (fun b => !b) (hreports n hn)
    have happend := hookReports_append store identity now
      ((lineFates contents).filterMap LineFate.event?) (content.fate contents).event?.toList
      (Course.start r s)
    rw [htakes.notices, List.filter_append, List.filter_append, h.hookNotices, hnone, hall,
      List.append_nil, hevents, hstate, hstore, h.course, ← List.flatMap_append]
    exact congrArg (List.flatMap HookReport.notices) happend.symm

variable (store identity now r s) in
/-- **Line after line, the replay accounts for what it has read.** -/
theorem accounts_takeAll (contents : List LineContent) :
    ((start r s).takeAll store identity now contents).Accounts store identity now r s
      contents := by
  -- from the last line backwards, since the fate of a line depends on those before it
  induction contents using List.reverseRecOn with
  | nil => exact accounts_start store identity now r s
  | append_singleton contents content ih =>
    rw [takeAll, List.foldl_append]
    exact ih.take content

end Replay

/-! ## Whole texts -/

/-- Whether a line of white space stands here. -/
def LineContent.isBlank : LineContent → Bool
  | .blank => true
  | _ => false

/-- Whether the characters of a line are all white space. -/
def isBlankLine (line : List UInt8) : Bool :=
  match Text.decodeUtf8 (Text.withoutLineEnd line) with
  | .ok cs => (Text.trim cs).isEmpty
  | .error _ => false

/-- A line is blank when nothing is left of it without the blanks around it. -/
theorem isBlank_read (cs : List Char) :
    (LineContent.read cs).isBlank = (Text.trim cs).isEmpty := by
  rw [LineContent.read]
  split
  · rename_i hempty
    rw [hempty]
    rfl
  · rename_i hnonempty
    have hfalse : (Text.trim cs).isEmpty = false := by
      rw [Bool.eq_false_iff, ne_eq, List.isEmpty_iff]
      exact hnonempty
    rw [hfalse]
    split
    · rfl
    · rfl

/-- A text comes to one content for each of its lines, blank where the line is. -/
theorem map_isBlank_readable {lines : List (List UInt8)}
    (h : ∀ line ∈ lines, (Text.decodeUtf8 (Text.withoutLineEnd line)).isOk = true) :
    (readable lines).map LineContent.isBlank = lines.map isBlankLine := by
  induction lines with
  | nil => rfl
  | cons line rest ih =>
    have hline := h line List.mem_cons_self
    have hrest := ih fun l hl => h l (List.mem_cons_of_mem _ hl)
    rw [readable, List.map_cons, isBlankLine]
    cases hd : Text.decodeUtf8 (Text.withoutLineEnd line) with
    | error fault =>
      rw [hd] at hline
      cases hline
    | ok cs =>
      show (LineContent.read cs).isBlank :: _ = (Text.trim cs).isEmpty :: _
      rw [isBlank_read, hrest]

/-- As many events are recorded as lines are dispatched. -/
theorem length_event?_lineFates (contents : List LineContent) :
    ((lineFates contents).filterMap LineFate.event?).length =
      (lineFates contents).countP LineFate.isDispatched := by
  induction lineFates contents with
  | nil => rfl
  | cons fate rest ih =>
    cases fate with
    | dispatched e =>
      rw [List.filterMap_cons_some (show LineFate.event? (.dispatched e) = some e from rfl),
        List.countP_cons, List.length_cons, ih]
      rfl
    | skipped => exact ih
    | malformed => exact ih
    | late kind => exact ih

/-- Every line that is not blank is dispatched, malformed or late, and only one of them. -/
theorem countP_lineFates (contents : List LineContent) :
    (lineFates contents).countP LineFate.isDispatched +
        (lineFates contents).countP LineFate.isMalformed +
        (lineFates contents).countP LineFate.isLate =
      (contents.map LineContent.isBlank).count false := by
  induction contents using List.reverseRecOn with
  | nil => rfl
  | append_singleton contents content ih =>
    have hone : [content.fate contents].countP LineFate.isDispatched +
        [content.fate contents].countP LineFate.isMalformed +
        [content.fate contents].countP LineFate.isLate = [content.isBlank].count false := by
      cases content with
      | blank => rfl
      | malformed => rfl
      | event e =>
        rw [LineContent.fate]
        split
        · rfl
        · rfl
    rw [lineFates_concat, List.map_append, List.count_append, ← ih]
    simp only [List.countP_append, List.map_cons, List.map_nil, ← hone]
    omega

/-- The replay of a text takes all of its lines and ends at its end. -/
theorem replay_snd_of_isText {stream : List UInt8} (htext : IsText stream) (r : RunState) (s : σ) :
    (replay store identity now stream r s).2 =
      ((Replay.start r s).takeAll store identity now (readable (Text.lines stream))).close := by
  rw [replay_eq, firstFault_eq_ok htext]

/-- The counts at the end of the stream say whether the run has ended. -/
theorem Replay.summary_close {p : Replay σ} (h : p.summary.finished = false) :
    p.close.summary = { p.summary with finished := decide (p.phase = .finished) } := by
  rw [close]
  split
  · rename_i hphase
    rw [decide_eq_true hphase]
  · rename_i hphase
    rw [decide_eq_false hphase, ← h]
    rfl

/-- The end of the stream is noted if it comes before the end of the run. -/
theorem Replay.notices_close (p : Replay σ) :
    p.close.notices =
      p.notices ++ if decide (p.phase = .finished) then [] else [.unfinished p.phase] := by
  rw [close]
  split
  · rename_i hphase
    rw [decide_eq_true hphase]
    exact (List.append_nil _).symm
  · rename_i hphase
    rw [decide_eq_false hphase]
    rfl

@[simp] theorem Replay.phase_close (p : Replay σ) : p.close.phase = p.phase := by
  rw [close]
  split
  · rfl
  · rfl

/-- **Every line of a text is accounted for exactly once.** The replay of a text returns its
counts, with any store. A blank line is skipped; a line without an event is counted as malformed,
an event after the end of the run as ignored, and every other event is counted and recorded, once
and in order: what a recorder, its store and its uploads come to is what those events do, and the
failures are those that they report. Of its own the replay says nothing but one warning for each
line that is malformed, ignored or out of order, by the number of the line and in the order of the
lines, and at the end that the run has not ended, if it has not. -/
theorem replay_accounts (store : Store σ) (identity : Identity) (now : Timestamp)
    (stream : List UInt8) (r : RunState) (s : σ) (htext : IsText stream) :
    let contents := readable (Text.lines stream)
    let fates := lineFates contents
    let events := fates.filterMap LineFate.event?
    let reports := hookReports store identity now events r s
    let run := replay store identity now stream r s
    ∃ summary, run.1 = .ok summary ∧
      fates.length = (Text.lines stream).length ∧
      summary.events = fates.countP LineFate.isDispatched ∧
      summary.malformedLines = fates.countP LineFate.isMalformed ∧
      summary.ignoredAfterRun = fates.countP LineFate.isLate ∧
      summary.events + summary.malformedLines + summary.ignoredAfterRun =
        (Text.lines stream).countP (fun line => !isBlankLine line) ∧
      summary.specs = events.countP (·.kind = .beforeSpec) ∧
      reports.length = summary.events ∧
      summary.failedHooks = reports.countP (·.outcome = .failed) ∧
      run.2.course = (Course.start r s).recordAll store identity now events ∧
      run.2.notices.filter (fun n => !n.isAboutStream) = reports.flatMap HookReport.notices ∧
      run.2.notices.filter Notice.isAboutStream =
        lineWarnings contents ++ (if summary.finished then [] else [.unfinished run.2.phase]) ∧
      (lineWarnings contents).length =
        summary.malformedLines + summary.ignoredAfterRun + summary.outOfOrder ∧
      ((lineWarnings contents).filterMap Notice.line?).Pairwise (· < ·) := by
  intro contents fates events reports run
  -- the invariant of the run, line by line; what remains is the notice about an unfinished run
  have haccounts := Replay.accounts_takeAll store identity now r s contents
  have hend : run.2 = ((Replay.start r s).takeAll store identity now contents).close :=
    replay_snd_of_isText store identity now htext r s
  generalize (Replay.start r s).takeAll store identity now contents = p at haccounts hend
  have hcourse : run.2.course = (Course.start r s).recordAll store identity now events := by
    rw [hend, Replay.course_close, haccounts.course]
  have hlines : contents.map LineContent.isBlank = (Text.lines stream).map isBlankLine :=
    map_isBlank_readable htext
  have hsummary : run.2.summary =
      { p.summary with finished := decide (p.phase = .finished) } := by
    rw [hend, Replay.summary_close haccounts.finished]
  have hnotices : run.2.notices =
      p.notices ++ if run.2.summary.finished then [] else [.unfinished run.2.phase] := by
    rw [hsummary, hend, Replay.notices_close, Replay.phase_close]
  refine ⟨run.2.summary, replay_of_isText store identity now r s htext, ?_, ?_, ?_, ?_, ?_, ?_, ?_,
    ?_, hcourse, ?_, ?_, ?_, pairwise_lines_lineWarnings contents⟩
  · show (mapPast _ contents).length = _
    rw [length_mapPast]
    simpa using congrArg List.length hlines
  · rw [hsummary]
    exact haccounts.events
  · rw [hsummary]
    exact haccounts.malformed
  · rw [hsummary]
    exact haccounts.late
  -- each line that is not blank has one of three fates
  · have hcount := countP_lineFates contents
    rw [hlines, ← haccounts.events, ← haccounts.malformed, ← haccounts.late] at hcount
    rw [hsummary]
    refine hcount.trans ?_
    rw [List.count, List.countP_map]
    exact List.countP_congr fun line _ => by simp
  · rw [hsummary]
    exact haccounts.specs
  · rw [length_hookReports, length_event?_lineFates, hsummary]
    exact haccounts.events.symm
  · have hfailures := congrArg Course.failures hcourse
    rw [failures_recordAll] at hfailures
    exact hfailures.trans (Nat.zero_add _)
  · rw [hnotices, List.filter_append, haccounts.hookNotices]
    split
    · exact List.append_nil _
    · exact List.append_nil _
  · rw [hnotices, List.filter_append, haccounts.warnings]
    congr 1
    split
    · rfl
    · rfl
  · rw [hsummary]
    exact haccounts.warned.symm

/-- A text with a line of every fate: two blank ones, two whose events come out of order, one
without an event, and one that comes too late. -/
def everyFate : List UInt8 :=
  ("\n[\"before:spec\",[\"a.ts\"]]\nno event\n[\"after:run\"]\n \r\n" ++
    "[\"before:spec\",[\"b.ts\"]]").toUTF8.data.toList

/-- The sample is a text, and each of its four lines with something wrong is warned about. -/
theorem replay_accounts_everyFate :
    IsText everyFate ∧
      (replay Tables.store .sample ⟨0, 0⟩ everyFate .initial .empty).1 =
        .ok ⟨2, 1, 2, 1, 2, 1, true⟩ ∧
      (replay Tables.store .sample ⟨0, 0⟩ everyFate .initial .empty).2.notices.filter
          Notice.isAboutStream =
        [.outOfOrder 2 .beforeSpec .awaitingRun, .malformedLine 3,
          .outOfOrder 4 .afterRun .inSpec, .lateEvent 6 .beforeSpec] := by
  have htext : IsText everyFate := by decide +kernel
  have hcounts : (replay Tables.store .sample ⟨0, 0⟩ everyFate .initial .empty).1.toOption =
      some ⟨2, 1, 2, 1, 2, 1, true⟩ := by decide +kernel
  have hwarnings : lineWarnings (readable (Text.lines everyFate)) =
      [.outOfOrder 2 .beforeSpec .awaitingRun, .malformedLine 3,
        .outOfOrder 4 .afterRun .inSpec, .lateEvent 6 .beforeSpec] := by decide +kernel
  obtain ⟨summary, hok, -, -, -, -, -, -, -, -, -, -, hnotices, -⟩ :=
    replay_accounts Tables.store .sample ⟨0, 0⟩ everyFate .initial .empty htext
  rw [hok] at hcounts
  obtain rfl : summary = ⟨2, 1, 2, 1, 2, 1, true⟩ := Option.some.inj hcounts
  rw [hwarnings] at hnotices
  exact ⟨htext, hok, hnotices⟩

end RunJournal
