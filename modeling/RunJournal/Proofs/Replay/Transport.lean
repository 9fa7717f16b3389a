import RunJournal.Proofs.Event.Written
import RunJournal.Proofs.Replay.Dispatch

/-!
# Events that are sent as lines are recorded

An event that was read from any text the reader takes is written as one line, and read from that
line again as the same event. So a stream of written events is replayed as if the events themselves
had been recorded one after the other up to the first end of the run (`transport_lossless`).

The lines are not the texts that the events were read from: those may be arrays, hold members that
are passed over and leave out members that have a default. Equality of events is what survives. It
needs one thing of the numbers in the events, that the decimal of each double is read as that
double.
-/

namespace RunJournal

open Json

/-! ## The line of an event -/

theorem getLast?_membersTail (members : List (String × Json)) :
    (membersTail members).getLast? = some '\x7d' := by
  induction members with
  | nil => rfl
  | cons m members ih =>
    rw [membersTail, ← List.cons_append, List.getLast?_append, ih, Option.some_or]

/-- The line of an event begins with a brace and ends with one. -/
theorem Event.trim_print (e : Event) : Text.trim e.toJson.print = e.toJson.print := by
  have hprint : e.toJson.print =
      ('\x7b' :: printMember ("event", .text e.kind.name)) ++ membersTail e.fields := by
    show '\x7b' :: printMembers (("event", .text e.kind.name) :: e.fields) = _
    rw [printMembers_cons]
    rfl
  refine Text.trim_eq_self ?_ ?_
  · intro c hc
    rw [hprint] at hc
    cases hc
    decide
  · intro c hc
    rw [hprint, List.getLast?_append, getLast?_membersTail] at hc
    cases hc
    decide

/-- A line that holds a written event comes to that event. -/
theorem LineContent.read_print {e : Event} (h : Event.read e.toJson.print = .ok e) :
    LineContent.read e.toJson.print = .event e := by
  unfold LineContent.read
  rw [e.trim_print]
  split
  · rename_i hnil
    cases hnil
  · rw [h]

/-! ## Streams of events -/

/-- What lines come to, when it is known which texts they carry. -/
theorem readable_of_texts {lines : List (List UInt8)} {texts : List (List Char)}
    (h : (lines.map fun line => Text.decodeUtf8 (Text.withoutLineEnd line)) = texts.map .ok) :
    readable lines = texts.map LineContent.read := by
  induction lines generalizing texts with
  | nil =>
    obtain rfl := List.map_eq_nil_iff.mp h.symm
    rfl
  | cons line lines ih =>
    cases texts with
    | nil => cases h
    | cons cs texts =>
      rw [List.map_cons, List.map_cons] at h
      obtain ⟨hline, hlines⟩ := List.cons.inj h
      rw [readable, hline, List.map_cons]
      exact congrArg _ (ih hlines)

/-- The stream of events: each on a line of its own. -/
def Event.stream (events : List Event) : List UInt8 :=
  Text.joined (events.map fun e => e.toJson.print)

theorem receive_stream (events : List Event) :
    Text.receive (Event.stream events) = events.map fun e => .ok e.toJson.print := by
  have hvisible : ∀ cs ∈ events.map fun e => e.toJson.print, Text.Visible cs ∧ cs ≠ [] := by
    intro cs hcs
    obtain ⟨e, -, rfl⟩ := List.mem_map.mp hcs
    exact ⟨visible_print e.toJson, fun hnil => nomatch hnil⟩
  rw [Event.stream, Text.receive_joined hvisible, List.map_map]
  rfl

theorem isText_stream (events : List Event) : IsText (Event.stream events) := by
  intro line hline
  have hmem :=
    List.mem_map_of_mem (f := fun line => Text.decodeUtf8 (Text.withoutLineEnd line)) hline
  have hreceive := receive_stream events
  rw [Text.receive] at hreceive
  rw [hreceive] at hmem
  obtain ⟨e, -, he⟩ := List.mem_map.mp hmem
  rw [← he]
  rfl

/-- A replay of written events dispatches the events. -/
theorem dispatched_stream {events : List Event}
    (h : ∀ e ∈ events, Event.read e.toJson.print = .ok e) :
    dispatched (Event.stream events) = throughEnd events := by
  have hreceive := receive_stream events
  have hcontents : readable (Text.lines (Event.stream events)) = events.map .event := by
    have htexts : Text.receive (Event.stream events) =
        (events.map fun e => e.toJson.print).map .ok := by
      rw [hreceive, List.map_map]
      rfl
    rw [readable_of_texts htexts, List.map_map]
    exact List.map_congr_left fun e he => LineContent.read_print (h e he)
  rw [dispatched, hcontents, List.filterMap_map]
  exact congrArg throughEnd List.filterMap_some

/-- **The transport of events loses nothing.** Events that were read from any texts are written
without a line break and read back as themselves; and a replay of their stream gets to the end,
hands on exactly the events up to the first end of the run, and leaves the recorder, its store and
the uploads as they are after those events were recorded without a stream. -/
theorem transport_lossless {events : List Event}
    (hread : ∀ e ∈ events, ∃ cs, Event.read cs = .ok e)
    (hreal : ∀ e ∈ events, ∀ x ∈ e.toJson.doubles, ReadsBack (.real x)) :
    (∀ e ∈ events, '\n' ∉ e.toJson.print ∧ '\r' ∉ e.toJson.print ∧
      Event.read e.toJson.print = .ok e) ∧
    dispatched (Event.stream events) = throughEnd events ∧
    ∀ {σ : Type} (store : Store σ) (identity : Identity) (now : Timestamp) (r : RunState) (s : σ),
      (replay store identity now (Event.stream events) r s).1 =
        .ok (replay store identity now (Event.stream events) r s).2.summary ∧
      (replay store identity now (Event.stream events) r s).2.course =
        (Course.start r s).recordAll store identity now (throughEnd events) := by
  have hprint : ∀ e ∈ events, Event.read e.toJson.print = .ok e := by
    intro e he
    obtain ⟨cs, hcs⟩ := hread e he
    exact Event.read_print (Event.kept_of_read hcs) (hreal e he)
  have hbreak (e : Event) : '\n' ∉ e.toJson.print ∧ '\r' ∉ e.toJson.print :=
    ⟨fun hmem => absurd (visible_print e.toJson _ hmem) (by decide),
      fun hmem => absurd (visible_print e.toJson _ hmem) (by decide)⟩
  have hdispatched := dispatched_stream hprint
  refine ⟨fun e he => ⟨(hbreak e).1, (hbreak e).2, hprint e he⟩, hdispatched, ?_⟩
  intro σ store identity now r s
  refine ⟨replay_of_isText store identity now r s (isText_stream events), ?_⟩
  rw [replay_course, hdispatched]

/-- Texts of events in either form: with members in an unusual order, unknown or repeated, with
fields that have a default, with escapes and with doubles. -/
def looseTexts : List (List Char) :=
  ["[\"before:run\",[[\"chrome\"]]]",
    "\x7b\"spec\": [\"a.ts\"], \"more\": [], \"event\": \"before:spec\"\x7d",
    "[\"after:spec\",[\"a.ts\"],[\x7b\"failures\":1\x7d,[\x7b\"title\":[\"t\\n\"]," ++
      "\"state\":\"failed\",\"attempts\":[" ++
      "\x7b\"ms\":1.5,\"state\":\"failed\",\"b\":2,\"b\":-0\x7d]\x7d]]]",
    "\x7b\"details\":[-0.25,\"\\u001f\"],\"event\":\"after:run\"\x7d",
    "[\"after:run\"]"].map fun text => (Text.decodeUtf8 text.toUTF8.data.toList).toOption.getD []

/-- The events of the sample texts. -/
def looseEvents : List Event :=
  looseTexts.filterMap fun cs => (Event.read cs).toOption

/-- All five texts are events, three doubles occur in them, and the last event is not dispatched. -/
theorem transport_lossless_looseEvents :
    looseEvents.length = 5 ∧ (looseEvents.flatMap fun e => e.toJson.doubles).length = 3 ∧
      (∀ e ∈ looseEvents, ∃ cs, Event.read cs = .ok e) ∧
      (∀ e ∈ looseEvents, ∀ x ∈ e.toJson.doubles, ReadsBack (.real x)) ∧
      dispatched (Event.stream looseEvents) = throughEnd looseEvents ∧
      (throughEnd looseEvents).length = 4 := by
  have hread : ∀ e ∈ looseEvents, ∃ cs, Event.read cs = .ok e := by
    intro e he
    obtain ⟨cs, -, hcs⟩ := List.mem_filterMap.mp he
    cases hevent : Event.read cs with
    | error fault =>
      rw [hevent] at hcs
      cases hcs
    | ok e' =>
      rw [hevent] at hcs
      cases hcs
      exact ⟨cs, hevent⟩
  have hreal : ∀ e ∈ looseEvents, ∀ x ∈ e.toJson.doubles, ReadsBack (.real x) := by
    decide +kernel
  exact ⟨by decide +kernel, by decide +kernel, hread, hreal, (transport_lossless hread hreal).2.1,
    by decide +kernel⟩

end RunJournal
