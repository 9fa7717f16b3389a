import Mathlib.Logic.Relation
import RunJournal.Proofs.Event.Written
import RunJournal.Proofs.Json.Edited

/-!
# The order of members and unknown members in events

An event may come from an engine that knows more than the recorder, and its members in any order,
the one that names the kind in any place. For each record in an event its `schema` lists the members
that are looked at, and the reader of the record is insensitive to every change that the schema
passes over (`SpecResults.insensitive` and its like). Attempts and the details of the end of a run
keep all of their members, and only the order of these is passed over.

The kind is read with a reader of its own, wherever it stands. What an object is as an event is
`Event.ofJson?`, which has the same value before and after a change (`Event.ofJson?_edited`), and so
the text of the object is accepted or refused alike, and with equal events (`Event.read_edited`).
-/

namespace RunJournal

open Json

/-! ## Records -/

/-- What is looked at in the record of a screenshot. -/
def Screenshot.schema : Schema :=
  .record [("path", .any), ("testId", .any), ("testAttemptIndex", .any)]

/-- What is looked at in the record of counts. -/
def Stats.schema : Schema :=
  .record [("tests", .any), ("passes", .any), ("failures", .any), ("pending", .any),
    ("skipped", .any)]

/-- What is looked at in the record of a test. Attempts are kept as a whole. -/
def TestResult.schema : Schema :=
  .record [("testId", .any), ("title", .list .any), ("state", .any), ("attempts", .list .any)]

/-- What is looked at in the record of results. -/
def SpecResults.schema : Schema :=
  .record [("stats", Stats.schema), ("tests", .list TestResult.schema),
    ("screenshots", .list Screenshot.schema), ("video", .any)]

/-- What is looked at in the record of a spec file. -/
def specSchema : Schema := .record [("relative", .any)]

/-- What is looked at in the record of a browser. -/
def browserSchema : Schema := .record [("name", .any)]

/-- What is looked at in what is known of a run at its start. -/
def runSchema : Schema := .record [("browser", browserSchema)]

theorem Screenshot.insensitive : Insensitive Screenshot.ofJson? Screenshot.schema :=
  insensitive_record _ fun fields fields' h => by
    rw [h.required "path" insensitive_text,
      h.required "testId" insensitive_text,
      h.required "testAttemptIndex" (insensitive_natBelow _)]

theorem Stats.insensitive : Insensitive Stats.ofJson? Stats.schema :=
  insensitive_record _ fun fields fields' h => by
    have hcount (name : String) :
        optional fields name (asNatBelow countLimit) 0 =
          optional fields' name (asNatBelow countLimit) 0 :=
      h.optional name (insensitive_natBelow countLimit) 0
    simp only [hcount]

/-- An attempt keeps all of its members, but not their order. -/
theorem Attempt.insensitive : Insensitive Attempt.ofJson? .any := by
  intro v w h
  cases v with
  | object members =>
    obtain ⟨members', rfl, hstate, hrest⟩ := h.setApart .any "state" rfl (fun h => h)
      (fun _ _ => rfl) fun _ _ h => h
    have hextra : sortMembers (canonicalMembers (members.filter fun m => m.1 != "state")) =
        sortMembers (canonicalMembers (members'.filter fun m => m.1 != "state")) := by
      rcases hrest with heq | hedit
      · rw [heq]
      · exact Json.object.inj (insensitive_canonical hedit)
    rw [Attempt.ofJson?_object, Attempt.ofJson?_object, hstate, hextra]
  | array items =>
    cases h
    rfl
  | null => cases h
  | bool b => cases h
  | number n => cases h
  | text s => cases h

theorem TestResult.insensitive : Insensitive TestResult.ofJson? TestResult.schema :=
  insensitive_record _ fun fields fields' h => by
    rw [h.optional "testId" insensitive_text,
      h.required "title" insensitive_text.asList,
      h.required "state" insensitive_text,
      h.optional "attempts" Attempt.insensitive.asList]

theorem SpecResults.insensitive : Insensitive SpecResults.ofJson? SpecResults.schema :=
  insensitive_record _ fun fields fields' h => by
    rw [h.required "stats" Stats.insensitive,
      h.optional "tests" TestResult.insensitive.asList,
      h.optional "screenshots" Screenshot.insensitive.asList,
      h.optional "video" insensitive_text.orNull]

/-- A record of a single field is read alike if the field is. -/
theorem insensitive_single {α : Type} {read : Json → Option α} {schema : Schema}
    (hread : Insensitive read schema) (name : String) :
    Insensitive (fun v => (fields? [name] v).bind fun fields => required fields name read)
      (.record [(name, schema)]) :=
  insensitive_record [(name, schema)] fun fields fields' h => by
    refine h.required name ?_
    rw [Schema.member, List.lookup_cons_self]
    exact hread

theorem insensitive_spec : Insensitive specOfJson? specSchema :=
  insensitive_single insensitive_text "relative"

theorem insensitive_browser : Insensitive browserOfJson? browserSchema :=
  insensitive_single insensitive_text "name"

theorem insensitive_run : Insensitive runOfJson? runSchema :=
  insensitive_single insensitive_browser "browser"

/-! ## Events -/

/-- The fields of an event, with what is looked at in them. -/
def EventKind.fields : EventKind → List (String × Schema)
  | .beforeRun => [("details", runSchema)]
  | .beforeSpec => [("spec", specSchema)]
  | .afterSpec => [("spec", specSchema), ("results", SpecResults.schema)]
  | .afterRun => [("details", .any)]

theorem Event.insensitive_ofFields? (kind : EventKind) :
    Insensitive (Event.ofFields? kind) (.record kind.fields) := by
  cases kind with
  | beforeRun =>
    exact insensitive_record _ fun fields fields' h => by
      rw [h.required "details" insensitive_run]
  | beforeSpec =>
    exact insensitive_record _ fun fields fields' h => by
      rw [h.required "spec" insensitive_spec]
  | afterSpec =>
    exact insensitive_record _ fun fields fields' h => by
      rw [h.required "spec" insensitive_spec,
        h.required "results" SpecResults.insensitive]
  | afterRun =>
    have hcanonical : Insensitive (fun v => some v.canonical) .any := fun _ _ h =>
      congrArg some (insensitive_canonical h)
    exact insensitive_record _ fun fields fields' h => by
      rw [h.optional "details" hcanonical.orNull]

/-- What is looked at in an object of this kind: the member that names the kind, and its fields. -/
def Event.schemaOf (kind : Option EventKind) : Schema :=
  .record (("event", .any) :: (kind.map EventKind.fields).getD [])

/-- A change of an object that the reader of events passes over. -/
def Event.Edited (v w : Json) : Prop := Edit (Event.schemaOf (Event.kind? v)) v w

/-- The kind is set apart from the fields. -/
theorem Event.Edited.setApart {members : List (String × Json)} {w : Json}
    (h : Event.Edited (.object members) w) :
    ∃ members', w = .object members' ∧
      Event.kind? (.object members) = Event.kind? (.object members') ∧
      ∀ kind, Event.kind? (.object members) = some kind →
        Event.ofFields? kind (.object (members.filter fun m => m.1 != "event")) =
          Event.ofFields? kind (.object (members'.filter fun m => m.1 != "event")) := by
  unfold Event.Edited Event.schemaOf at h
  generalize hkind : Event.kind? (.object members) = found at h
  obtain ⟨members', rfl, htag, hrest⟩ := h.setApart (.record ((found.map EventKind.fields).getD []))
    "event" rfl (fun hignored => hignored List.mem_cons_self)
    (fun other hother => by
      rw [Schema.member, Schema.member, List.lookup_cons, beq_eq_false_iff_ne.mpr hother])
    fun other _ hignored hfield => hignored (List.mem_cons_of_mem _ hfield)
  refine ⟨members', rfl, ?_, ?_⟩
  · rw [← hkind]
    show (onlyText? "event" members).bind _ = (onlyText? "event" members').bind _
    rw [htag]
  · rintro kind rfl
    rcases hrest with heq | hedit
    · rw [heq]
    · exact Event.insensitive_ofFields? kind hedit

/-- What an object is as an event does not change. -/
theorem Event.ofJson?_edited {v w : Json} (h : Event.Edited v w) :
    Event.ofJson? v = Event.ofJson? w := by
  cases v with
  | object members =>
    obtain ⟨members', rfl, hkind, hfields⟩ := h.setApart
    unfold Event.ofJson?
    dsimp only
    rw [← hkind]
    exact Option.bind_congr hfields
  | array items =>
    cases h with
    | item before after hinner hitem => cases hinner
  | null => cases h
  | bool b => cases h
  | number n => cases h
  | text s => cases h

/-- Nor does it change in any number of places. -/
theorem Event.ofJson?_eq_of_eqvGen {v w : Json} (h : Relation.EqvGen Event.Edited v w) :
    Event.ofJson? v = Event.ofJson? w := by
  induction h with
  | rel v w h => exact Event.ofJson?_edited h
  | refl v => rfl
  | symm v w _ ih => exact ih.symm
  | trans u v w _ _ ih₁ ih₂ => exact ih₁.trans ih₂

/-- **The order of members and unknown members do not matter.** Let one object be made from another
by putting members in another order, at any depth, and by inserting and deleting members that are
not known where they stand. Then the texts of both are accepted as the same event, or neither is. -/
theorem Event.read_edited {cs ds : List Char} {members members' : List (String × Json)}
    (hcs : Json.read cs = .ok (.object members)) (hds : Json.read ds = .ok (.object members'))
    (h : Relation.EqvGen Event.Edited (.object members) (.object members')) (e : Event) :
    Event.read cs = .ok e ↔ Event.read ds = .ok e := by
  rw [Event.read_eq_ok_iff_of_json hcs, Event.read_eq_ok_iff_of_json hds,
    Event.ofJson?_eq_of_eqvGen h]

/-- The members of an event after a spec, whose spec file and only attempt have these members. -/
def finishedSpec (spec attempt : List (String × Json)) : List (String × Json) :=
  let test : Json := .object [("title", .array [.text "login"]), ("state", .text "passed"),
    ("attempts", .array [.object attempt])]
  [("event", .text "after:spec"), ("spec", .object spec),
    ("results", .object [("stats", .object []), ("tests", .array [test])])]

/-- A finished spec as the recorder knows it. -/
def knownSpec : List (String × Json) :=
  finishedSpec [("relative", .text "a.cy.ts")] [("state", .text "passed"), ("error", .null)]

/-- The same from an engine that knows more, orders an attempt otherwise and names the kind last. -/
def extendedSpec : List (String × Json) :=
  ("engine", .number (.integer 16)) ::
    (finishedSpec [("absolute", .text "/a.cy.ts"), ("relative", .text "a.cy.ts")]
      [("error", .null), ("state", .text "passed")]).reverse

/-- The one is made from the other in four steps, from the inside to the outside. -/
theorem edited_knownSpec_extendedSpec :
    Relation.EqvGen Event.Edited (.object knownSpec) (.object extendedSpec) := by
  let placed := finishedSpec [("absolute", .text "/a.cy.ts"), ("relative", .text "a.cy.ts")]
    [("state", .text "passed"), ("error", .null)]
  let ordered := finishedSpec [("absolute", .text "/a.cy.ts"), ("relative", .text "a.cy.ts")]
    [("error", .null), ("state", .text "passed")]
  have hplaced : Event.Edited (.object knownSpec) (.object placed) :=
    .member [_] [_] (.insert [] _ _ (by decide : "absolute" ∉ ["relative"]))
  have hordered : Event.Edited (.object placed) (.object ordered) :=
    .member [_, _] [] (.member [_] [] (.item [] [] rfl (.member [_, _] [] (.item [] [] rfl
      (.reorder (by decide) (.swap _ _ _))))))
  have hreversed : Event.Edited (.object ordered) (.object ordered.reverse) :=
    .reorder (by decide) ordered.reverse_perm.symm
  have hextended : Event.Edited (.object ordered.reverse) (.object extendedSpec) :=
    .insert [] _ _ (by decide : "engine" ∉ ["event", "spec", "results"])
  exact (((Relation.EqvGen.rel _ _ hplaced).trans _ _ _ (.rel _ _ hordered)).trans _ _ _
    (.rel _ _ hreversed)).trans _ _ _ (.rel _ _ hextended)

set_option maxRecDepth 10000 in
/-- The texts of both samples are read as the same event. -/
theorem Event.read_edited_extendedSpec :
    ∃ e, Event.read (Json.object knownSpec).print = .ok e ∧
      Event.read (Json.object extendedSpec).print = .ok e := by
  have hknown : Json.read (Json.object knownSpec).print = .ok (.object knownSpec) := rfl
  have hextended : Json.read (Json.object extendedSpec).print = .ok (.object extendedSpec) := rfl
  let finished : Event := .afterSpec "a.cy.ts"
    ⟨⟨0, 0, 0, 0, 0⟩, [⟨"", ["login"], "passed", [⟨"passed", [("error", .null)]⟩]⟩], [], none⟩
  have hread : Event.read (Json.object knownSpec).print = .ok finished := rfl
  exact ⟨finished, hread, (Event.read_edited hknown hextended edited_knownSpec_extendedSpec
    finished).mp hread⟩

end RunJournal
