import Mathlib.Logic.Relation
import RunJournal.Proofs.Replay.Tally

/-!
# What lies around the events does not matter

Two pages may carry the same events in many ways: with blank lines, with lines that hold no event,
with white space around the lines, and with or without a line feed at the end. `Page.Edit` makes one
page from another in one of these ways, and any number of them, there and back, is its closure to an
equivalence.

An edit leaves the events of a page as they are (`Edit.events_eq`), so everything that depends on
the events alone is the same for the two pages (`replay_reframed`).
-/

namespace RunJournal

namespace Text.Page

/-- One page made from another without touching an event. -/
inductive Edit : Page → Page → Prop where
  /-- Inserts a line of white space. -/
  | blank {p q : Page} (before after : List (List Char)) (line : List Char)
      (hp : p.lines = before ++ after) (hq : q.lines = before ++ line :: after)
      (hended : q.ended = p.ended) (hline : trim line = []) : Edit p q
  /-- Inserts a line that is not an event. -/
  | noise {p q : Page} (before after : List (List Char)) (line : List Char)
      (hp : p.lines = before ++ after) (hq : q.lines = before ++ line :: after)
      (hended : q.ended = p.ended) (hline : ∀ e, Event.read (trim line) ≠ .ok e) : Edit p q
  /-- Puts white space around a line. -/
  | pad {p q : Page} (before after : List (List Char)) (left line right : List Char)
      (hp : p.lines = before ++ line :: after)
      (hq : q.lines = before ++ (left ++ line ++ right) :: after) (hended : q.ended = p.ended)
      (hleft : ∀ c ∈ left, isBlank c = true) (hright : ∀ c ∈ right, isBlank c = true) : Edit p q
  /-- Puts a line feed at the end, or takes it away. -/
  | finish {p q : Page} (hlines : q.lines = p.lines) : Edit p q

/-- Where a line is inserted, its event is. -/
theorem events_eq_of_insert {p q : Page} {before after : List (List Char)} {line : List Char}
    (hp : p.lines = before ++ after) (hq : q.lines = before ++ line :: after)
    (hline : (LineContent.read line).event? = none) : p.events = q.events := by
  rw [events, events, hp, hq, List.map_append, List.map_append, List.filterMap_append,
    List.filterMap_append, List.map_cons, List.filterMap_cons_none hline]

/-- An edit changes no event. -/
theorem Edit.events_eq {p q : Page} (h : Edit p q) : p.events = q.events := by
  -- by edit: what is inserted is no event, and what is padded reads the same
  cases h with
  | blank before after line hp hq hended hline =>
    refine events_eq_of_insert hp hq ?_
    rw [LineContent.read, hline]
    rfl
  | noise before after line hp hq hended hline =>
    refine events_eq_of_insert hp hq ?_
    rw [LineContent.read]
    split
    · rfl
    · split
      · rename_i e hread
        exact absurd hread (hline e)
      · rfl
  | pad before after left line right hp hq hended hleft hright =>
    have hread := LineContent.read_congr (trim_padded hleft hright line)
    rw [events, events, hp, hq, List.map_append, List.map_append, List.map_cons, List.map_cons,
      hread]
  | finish hlines => rw [events, events, hlines]

theorem events_eq_of_eqvGen {p q : Page} (h : Relation.EqvGen Edit p q) : p.events = q.events :=
  (eq_equivalence.comap events).eqvGen_iff.mp
    (Relation.EqvGen.mono (fun _ _ hedit => hedit.events_eq) _ _ h)

end Text.Page

variable {σ : Type}

/-- **Framing does not matter.** Let one page be made from another by inserting and deleting blank
lines and lines that are not events, by putting white space around lines and taking it away, and by
ending the last line or not. Then, with any store, the replays of both record the same events one
after the other, and leave the recorder, the store and the uploads in the same state. They return
the same counts but for the malformed lines, of which each page has its own. -/
theorem replay_reframed {p q : Text.Page} (h : Relation.EqvGen Text.Page.Edit p q)
    (store : Store σ) (identity : Identity) (now : Timestamp) (r : RunState) (s : σ) :
    let run := replay store identity now p.bytes r s
    let reframed := replay store identity now q.bytes r s
    dispatched q.bytes = dispatched p.bytes ∧
      run.2.course = (Course.start r s).recordAll store identity now (dispatched p.bytes) ∧
      reframed.2.course = (Course.start r s).recordAll store identity now (dispatched q.bytes) ∧
      reframed.2.state = run.2.state ∧ reframed.2.store = run.2.store ∧
      reframed.2.uploads = run.2.uploads ∧
      ∃ summary, run.1 = .ok summary ∧ summary.malformedLines = p.malformed ∧
        reframed.1 = .ok { summary with malformedLines := q.malformed } := by
  intro run reframed
  have hevents := Text.Page.events_eq_of_eqvGen h
  obtain ⟨hok, hcourse⟩ := replay_page store identity now p r s
  obtain ⟨hok', hcourse'⟩ := replay_page store identity now q r s
  rw [← hevents] at hok' hcourse'
  have hsame : reframed.2.course = run.2.course := hcourse'.trans hcourse.symm
  refine ⟨?_, ?_, ?_, congrArg Course.state hsame, congrArg Course.store hsame,
    congrArg Course.uploads hsame, _, hok, rfl, hok'⟩
  · rw [p.dispatched_bytes, q.dispatched_bytes, hevents]
  · rw [p.dispatched_bytes]
    exact hcourse
  · rw [q.dispatched_bytes, ← hevents]
    exact hcourse'

/-- A page with a line that is not an event, and no line feed at the end. -/
def barePage : Text.Page where
  lines := ["[\"before:run\",[[\"chrome\"]]]", "no event", "[\"after:run\"]"].map String.toList
  ended := false
  unbroken := by decide

/-- The same events with a blank line between them, ended in carriage returns and line feeds, and
the first one set in. -/
def framedPage : Text.Page where
  lines := ["\t\u00A0[\"before:run\",[[\"chrome\"]]]\r", " ", "[\"after:run\"]\r"].map String.toList
  ended := true
  unbroken := by decide

/-- One sample page is made from the other: a line that is not an event goes, a blank one comes,
white space is put around both events, and the last line is ended. -/
theorem eqvGen_edit_framedPage : Relation.EqvGen Text.Page.Edit barePage framedPage := by
  let noiseless : Text.Page := ⟨barePage.lines.eraseIdx 1, false, by decide⟩
  let spaced : Text.Page := ⟨barePage.lines.set 1 [' '], false, by decide⟩
  let inset : Text.Page := ⟨framedPage.lines.take 2 ++ spaced.lines.drop 2, false, by decide⟩
  let padded : Text.Page := ⟨framedPage.lines, false, by decide⟩
  have hfault : (Event.read (Text.trim "no event".toList)).isOk = false := by decide +kernel
  have hnoise : ∀ e, Event.read (Text.trim "no event".toList) ≠ .ok e := by
    intro e hread
    rw [hread] at hfault
    cases hfault
  have hdelete : Text.Page.Edit noiseless barePage :=
    .noise [barePage.lines[0]] [barePage.lines[2]] "no event".toList rfl rfl rfl hnoise
  have hblank : Text.Page.Edit noiseless spaced :=
    .blank [barePage.lines[0]] [barePage.lines[2]] [' '] rfl rfl rfl (by decide)
  have hleft : ∀ c ∈ "\t\u00A0".toList, Text.isBlank c = true :=
    List.all_eq_true.mp (by decide +kernel)
  have hright : ∀ c ∈ ['\r'], Text.isBlank c = true := List.all_eq_true.mp (by decide)
  have hinset : Text.Page.Edit spaced inset :=
    .pad [] (spaced.lines.drop 1) "\t\u00A0".toList barePage.lines[0] ['\r'] (by decide +kernel)
      (by decide +kernel) rfl hleft hright
  have hreturn : Text.Page.Edit inset padded :=
    .pad (framedPage.lines.take 2) [] [] barePage.lines[2] ['\r'] rfl rfl rfl
      (List.forall_mem_nil _) hright
  have hfinish : Text.Page.Edit padded framedPage := .finish rfl
  -- one edit of each kind, the first of them undone
  exact .trans _ _ _ (.symm _ _ (.rel _ _ hdelete)) <| .trans _ _ _ (.rel _ _ hblank) <|
    .trans _ _ _ (.rel _ _ hinset) <| .trans _ _ _ (.rel _ _ hreturn) (.rel _ _ hfinish)

/-- Both sample pages are recorded as the same run, and only the first has a malformed line. -/
theorem replay_reframed_framedPage :
    Relation.EqvGen Text.Page.Edit barePage framedPage ∧
      (replay Tables.store .sample ⟨0, 0⟩ barePage.bytes .initial .empty).1 =
        .ok ⟨2, 0, 0, 1, 0, 0, true⟩ ∧
      (replay Tables.store .sample ⟨0, 0⟩ framedPage.bytes .initial .empty).1 =
        .ok ⟨2, 0, 0, 0, 0, 0, true⟩ ∧
      (replay Tables.store .sample ⟨0, 0⟩ framedPage.bytes .initial .empty).2.store =
        (replay Tables.store .sample ⟨0, 0⟩ barePage.bytes .initial .empty).2.store := by
  have hcounts : (replay Tables.store .sample ⟨0, 0⟩ barePage.bytes .initial .empty).1.toOption =
      some ⟨2, 0, 0, 1, 0, 0, true⟩ := by decide +kernel
  have hmalformed : framedPage.malformed = 0 := by decide +kernel
  obtain ⟨-, -, -, -, hstore, -, summary, hok, -, hframed⟩ :=
    replay_reframed eqvGen_edit_framedPage Tables.store .sample ⟨0, 0⟩ .initial .empty
  rw [hok] at hcounts
  obtain rfl : summary = ⟨2, 0, 0, 1, 0, 0, true⟩ := Option.some.inj hcounts
  rw [hmalformed] at hframed
  exact ⟨eqvGen_edit_framedPage, hok, hframed, hstore⟩

end RunJournal
