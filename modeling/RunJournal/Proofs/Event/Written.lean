import RunJournal.Proofs.Event.Records
import RunJournal.Proofs.Json.Accepted
import RunJournal.Proofs.Json.RoundTrip

/-!
# Events survive being written

An event that was read is kept by its fields (`Event.kept_of_read`), and an event that is kept is
read back from its text (`Event.read_print`). The reader of events has loops of its own, because it
judges the name of the kind as soon as it meets it. Over an object it keeps step with the reader of
values, and the reader of values with it wherever one kind is named. So the text of an object is an
event if the object is (`Event.read_eq_ok_iff_of_json`), and which event the object is does not
depend on where in it the kind is named (`Event.ofJson?`).
-/

namespace RunJournal

open Json

/-! ## What an event is read from -/

/-- The members that are gathered lie within the depth that is left below the event. -/
theorem within_of_readEventMember {gathered next : Gathered} {name : String} {cs rest : List Char}
    (hgathered : ∀ m ∈ gathered.members, Within InRange (maxDepth - 1) m.2)
    (h : readEventMember gathered name cs = .ok (next, rest)) :
    ∀ m ∈ next.members, Within InRange (maxDepth - 1) m.2 := by
  unfold readEventMember at h
  split at h
  · split at h
    · cases h
    · obtain ⟨_, -, h⟩ := bind_eq_ok_iff.mp h
      obtain ⟨_, -, h⟩ := bind_eq_ok_iff.mp h
      cases h
      exact hgathered
  · obtain ⟨⟨members, _⟩, hmember, h⟩ := bind_eq_ok_iff.mp h
    cases h
    exact within_of_readMember (fun _ _ _ => within_of_readValue) hgathered hmember

/-- The fields of an event that was read. -/
theorem within_of_readEvent {cs rest : List Char} {kind : EventKind} {fields : Json}
    (h : readEvent cs = .ok ((kind, fields), rest)) : Within InRange maxDepth fields := by
  unfold readEvent at h
  split at h
  · cases h
  · obtain ⟨⟨gathered, _⟩, hmembers, h⟩ := bind_eq_ok_iff.mp h
    -- members that were gathered lie one level below the event
    have hwithin := readMembers_keeps
      (P := fun gathered => ∀ m ∈ gathered.members, Within InRange (maxDepth - 1) m.2)
      (fun _ _ _ _ _ => within_of_readEventMember) (fun _ hm => absurd hm List.not_mem_nil) hmembers
    dsimp only at h
    split at h
    · cases h
    · cases h
      exact .object fun m hm => hwithin m (List.mem_reverse.mp hm)
  · split at h
    · cases h
    · cases h
    · obtain ⟨_, -, h⟩ := bind_eq_ok_iff.mp h
      obtain ⟨⟨items, _⟩, hitems, h⟩ := bind_eq_ok_iff.mp h
      cases h
      exact .array (forall_of_readItems (fun _ _ _ => within_of_readValue)
        (fun _ hv => absurd hv List.not_mem_nil) hitems)
  · cases h

/-- An event that was read is made of fields of its kind, and only space follows them. -/
theorem Event.read_eq_ok_iff {cs : List Char} {e : Event} :
    Event.read cs = .ok e ↔ ∃ kind fields rest, readEvent cs = .ok ((kind, fields), rest) ∧
      Event.ofFields? kind fields = some e ∧ readEnd rest = .ok () := by
  constructor
  · intro h
    obtain ⟨⟨⟨kind, fields⟩, rest⟩, hread, h⟩ := bind_eq_ok_iff.mp h
    dsimp only at h
    split at h
    · cases h
    · rename_i e' hfields
      obtain ⟨_, hend, h⟩ := bind_eq_ok_iff.mp h
      cases h
      exact ⟨kind, fields, rest, hread, hfields, hend⟩
  · rintro ⟨kind, fields, rest, hread, hfields, hend⟩
    refine bind_eq_ok_iff.mpr ⟨_, hread, ?_⟩
    dsimp only
    rw [hfields]
    exact bind_eq_ok_iff.mpr ⟨_, hend, rfl⟩

/-- An event that was read is kept by its fields. -/
theorem Event.kept_of_read {cs : List Char} {e : Event} (h : Event.read cs = .ok e) :
    Kept (Event.ofFields? e.kind) (fun e => .object e.fields) maxDepth e := by
  obtain ⟨kind, fields, rest, hread, hfields, -⟩ := Event.read_eq_ok_iff.mp h
  rw [(Event.ofFields?_eq_some_iff.mp hfields).1]
  exact Event.retold kind (by decide) (within_of_readEvent hread) hfields

/-! ## An event as a value -/

/-- A name that is known is the name of its kind. -/
theorem name_of_ofName? {name : String} {kind : EventKind}
    (h : EventKind.ofName? name = some kind) : kind.name = name :=
  beq_iff_eq.mp (List.find?_some (p := fun kind => EventKind.name kind == name) h)

/-- A kind is a text. -/
theorem readValue_of_readKind {cs rest : List Char} {kind : EventKind}
    (h : readKind cs = .ok (kind, rest)) (depth : Nat) :
    readValue depth cs = .ok (.text kind.name, rest) := by
  unfold readKind at h
  split at h
  · cases h
  · rename_i start hspace
    obtain ⟨⟨name, after⟩, hname, h⟩ := bind_eq_ok_iff.mp h
    dsimp only at h
    split at h
    · rename_i kind' hkind
      cases h
      rw [← readValue_skipSpace, hspace, readValue_quote, hname, name_of_ofName? hkind]
      rfl
    · cases h
  · cases h
  · cases h
  · cases h

theorem ofName?_name (kind : EventKind) : EventKind.ofName? kind.name = some kind := by
  cases kind with
  | beforeRun => rfl
  | beforeSpec => rfl
  | afterSpec => rfl
  | afterRun => rfl

/-- A text that is read as the name of a kind is read as that kind. -/
theorem readKind_of_readValue {depth : Nat} {cs rest : List Char} {kind : EventKind}
    (h : readValue depth cs = .ok (.text kind.name, rest)) : readKind cs = .ok (kind, rest) := by
  obtain ⟨start, hspace, hname⟩ := readValue_eq_text_iff.mp h
  unfold readKind
  rw [hspace]
  refine bind_eq_ok_iff.mpr ⟨_, hname, ?_⟩
  dsimp only
  rw [ofName?_name]

/-- The kind that an object names as an event. -/
def Event.kind? : Json → Option EventKind
  | .object members => (onlyText? "event" members).bind EventKind.ofName?
  | _ => none

/-- The event that an object is, wherever its kind is named. -/
def Event.ofJson? (v : Json) : Option Event :=
  match v with
  | .object members => (Event.kind? v).bind fun kind =>
    Event.ofFields? kind (.object (members.filter fun m => m.1 != "event"))
  | _ => none

/-- The only members that can name a kind, once it is known. -/
def tags (kind : Option EventKind) : List (String × Json) :=
  (kind.map fun kind => ("event", Json.text kind.name)).toList

/-- An object has a kind when it has one tag, and the tag names it. -/
theorem Event.kind?_eq_some_iff {members : List (String × Json)} {kind : EventKind} :
    Event.kind? (.object members) = some kind ↔
      (members.filter fun m => m.1 == "event") = tags (some kind) := by
  unfold Event.kind?
  dsimp only
  rw [Option.bind_eq_some_iff]
  constructor
  · rintro ⟨name, hname, hkind⟩
    rw [onlyText?_eq_some_iff.mp hname, ← name_of_ofName? hkind]
    rfl
  · intro h
    exact ⟨kind.name, onlyText?_eq_some_iff.mpr h, ofName?_name kind⟩

/-- What was gathered of an event are these members, last first: one that names the kind if it is
known, and the others. -/
structure Gathered.Matches (gathered : Gathered) (members : List (String × Json)) : Prop where
  tag : (members.filter fun m => m.1 == "event") = tags gathered.kind
  others : gathered.members = members.filter fun m => m.1 != "event"

theorem Gathered.matches_nil : Gathered.Matches ⟨none, []⟩ [] := ⟨rfl, rfl⟩

/-- The kind of an event is that of the object with these members. -/
theorem Gathered.Matches.kind?_object {gathered : Gathered} {members : List (String × Json)}
    (h : gathered.Matches members) : Event.kind? (.object members.reverse) = gathered.kind := by
  unfold Event.kind?
  dsimp only
  rw [onlyText?, List.filter_reverse, h.tag]
  cases gathered.kind with
  | none => rfl
  | some kind => exact ofName?_name kind

/-- Where a member of an event is read, a member of an object is read. -/
theorem readMember_of_readEventMember {gathered next : Gathered} {members : List (String × Json)}
    {name : String} {cs rest : List Char} (hmatches : gathered.Matches members)
    (h : readEventMember gathered name cs = .ok (next, rest)) :
    ∃ members', readMember (readValue (maxDepth - 1)) members name cs = .ok (members', rest) ∧
      next.Matches members' := by
  unfold readEventMember at h
  split at h
  · rename_i hname
    split at h
    · cases h
    · rename_i hkind
      obtain ⟨start, hcolon, h⟩ := bind_eq_ok_iff.mp h
      obtain ⟨⟨kind, after⟩, hread, h⟩ := bind_eq_ok_iff.mp h
      cases h
      have hv := readValue_of_readKind hread (maxDepth - 1)
      refine ⟨_, readMember_eq_ok_iff.mpr ⟨start, _, hcolon, hv, rfl⟩, ?_, ?_⟩
      -- the reader refuses a second tag, so this is the first
      · have hnone : gathered.kind = none := Option.not_isSome_iff_eq_none.mp hkind
        rw [hname, List.filter_cons, if_pos (beq_self_eq_true _), hmatches.tag, hnone]
        rfl
      · rw [hname]
        exact hmatches.others.trans (List.filter_cons_of_neg Bool.false_ne_true).symm
  · rename_i hname
    obtain ⟨⟨gatheredMembers, after⟩, hmember, h⟩ := bind_eq_ok_iff.mp h
    cases h
    obtain ⟨start, v, hcolon, hv, rfl⟩ := readMember_eq_ok_iff.mp hmember
    refine ⟨_, readMember_eq_ok_iff.mpr ⟨start, v, hcolon, hv, rfl⟩, ?_, ?_⟩
    · have hother : ¬ (name == "event") = true := fun heq => hname (beq_iff_eq.mp heq)
      rw [List.filter_cons, if_neg hother]
      exact hmatches.tag
    · have hkept : (name != "event") = true := bne_iff_ne.mpr hname
      rw [List.filter_cons, if_pos hkept, hmatches.others]

/-- Whether members name one kind, if any. -/
def NamesOneKind (members : List (String × Json)) : Prop :=
  ∃ kind, (members.filter fun m => m.1 == "event") = tags kind

/-- What names the kind among more members names it among less, or nothing does yet. -/
theorem NamesOneKind.of_readMember {members members' : List (String × Json)} {name : String}
    {cs rest : List Char}
    (h : readMember (readValue (maxDepth - 1)) members name cs = .ok (members', rest))
    (hone : NamesOneKind members') : NamesOneKind members := by
  obtain ⟨kind, htags⟩ := hone
  obtain ⟨_, v, -, -, rfl⟩ := readMember_eq_ok_iff.mp h
  rw [List.filter_cons] at htags
  split at htags
  · cases kind with
    | none => cases htags
    | some kind => exact ⟨none, (List.cons.inj htags).2⟩
  · exact ⟨kind, htags⟩

/-- Where a member of an object is read, a member of an event is read, if the members then name one
kind at most. -/
theorem readEventMember_of_readMember {gathered : Gathered} {members members' : List (String × Json)}
    {name : String} {cs rest : List Char} (hmatches : gathered.Matches members)
    (hone : NamesOneKind members')
    (h : readMember (readValue (maxDepth - 1)) members name cs = .ok (members', rest)) :
    ∃ next, readEventMember gathered name cs = .ok (next, rest) ∧ next.Matches members' := by
  obtain ⟨kind, htags⟩ := hone
  obtain ⟨start, v, hcolon, hv, rfl⟩ := readMember_eq_ok_iff.mp h
  unfold readEventMember
  by_cases hname : name = "event"
  · subst hname
    rw [List.filter_cons, if_pos (beq_self_eq_true _), hmatches.tag] at htags
    cases kind with
    | none => cases htags
    | some kind =>
      obtain ⟨hvalue, hnone⟩ := List.cons.inj htags
      cases hvalue
      -- a second tag would leave two of them in the object
      have hkind : gathered.kind = none := by
        cases hgathered : gathered.kind with
        | none => rfl
        | some other =>
          rw [hgathered] at hnone
          cases hnone
      refine ⟨{ gathered with kind := some kind }, ?_, ?_, ?_⟩
      · rw [if_pos rfl, hkind]
        refine (if_neg Bool.false_ne_true).trans ?_
        exact bind_eq_ok_iff.mpr ⟨start, hcolon, bind_eq_ok_iff.mpr
          ⟨_, readKind_of_readValue hv, rfl⟩⟩
      · rw [List.filter_cons, if_pos (beq_self_eq_true _), hmatches.tag, hkind]
        rfl
      · exact hmatches.others.trans (List.filter_cons_of_neg Bool.false_ne_true).symm
  · have hother : ¬ (name == "event") = true := fun heq => hname (beq_iff_eq.mp heq)
    have hkept : (name != "event") = true := bne_iff_ne.mpr hname
    refine ⟨{ gathered with members := (name, v) :: gathered.members }, ?_, ?_, ?_⟩
    · rw [if_neg hname]
      exact bind_eq_ok_iff.mpr ⟨_, readMember_eq_ok_iff.mpr ⟨start, v, hcolon, hv, rfl⟩, rfl⟩
    · rw [List.filter_cons, if_neg hother]
      exact hmatches.tag
    · rw [List.filter_cons, if_pos hkept, hmatches.others]

/-- **An event that is written as an object** is the event that its value is. -/
theorem Event.ofJson?_of_read {cs tail : List Char} {e : Event}
    (hopen : skipSpace cs = '\x7b' :: tail) (h : Event.read cs = .ok e) :
    ∃ members, Json.read cs = .ok (.object members) ∧ Event.ofJson? (.object members) = some e := by
  obtain ⟨kind, fields, rest, hread, hfields, hend⟩ := Event.read_eq_ok_iff.mp h
  unfold readEvent at hread
  rw [hopen] at hread
  obtain ⟨⟨gathered, after⟩, hgathered, hread⟩ := bind_eq_ok_iff.mp hread
  dsimp only at hread
  split at hread
  · cases hread
  · rename_i kind' hkind
    cases hread
    -- both readers go through the same members, so one simulates the other
    obtain ⟨members, hmembers, hmatches⟩ := readMembers_simulates
      (fun _ _ _ _ _ _ => readMember_of_readEventMember) Gathered.matches_nil hgathered
    refine ⟨members.reverse, ?_, ?_⟩
    · have hvalue : readValue maxDepth cs = .ok (.object members.reverse, rest) := by
        rw [← readValue_skipSpace, hopen]
        show readValue (maxDepth - 1 + 1) _ = _
        rw [readValue_brace, hmembers]
        rfl
      exact bind_eq_ok_iff.mpr ⟨_, hvalue, bind_eq_ok_iff.mpr ⟨_, hend, rfl⟩⟩
    · unfold Event.ofJson?
      dsimp only
      rw [hmatches.kind?_object, hkind, List.filter_reverse, ← hmatches.others]
      exact hfields

/-- The fields of an event that is written as an object are its members, without the one that names
the kind. -/
theorem Event.json_of_read {cs tail : List Char} {e : Event} (hopen : skipSpace cs = '\x7b' :: tail)
    (h : Event.read cs = .ok e) :
    ∃ members, Json.read cs = .ok (.object members) ∧
      Event.ofFields? e.kind (.object (members.filter fun m => m.1 != "event")) = some e := by
  obtain ⟨members, hread, hjson⟩ := Event.ofJson?_of_read hopen h
  obtain ⟨kind, -, hfields⟩ := Option.bind_eq_some_iff.mp hjson
  rw [(Event.ofFields?_eq_some_iff.mp hfields).1]
  exact ⟨members, hread, hfields⟩

/-- **The text of an object** is an event if the object is. -/
theorem Event.read_eq_ok_iff_of_json {cs : List Char} {members : List (String × Json)}
    (h : Json.read cs = .ok (.object members)) {e : Event} :
    Event.read cs = .ok e ↔ Event.ofJson? (.object members) = some e := by
  obtain ⟨⟨v, rest⟩, hvalue, hrest⟩ := bind_eq_ok_iff.mp h
  obtain ⟨_, hend, hv⟩ := bind_eq_ok_iff.mp hrest
  cases hv
  obtain ⟨start, hopen, hmembers⟩ := readValue_eq_object_iff.mp hvalue
  constructor
  · intro he
    obtain ⟨members', hread, hjson⟩ := Event.ofJson?_of_read hopen he
    rw [h] at hread
    cases hread
    exact hjson
  · intro he
    obtain ⟨kind, hkind, hfields⟩ := Option.bind_eq_some_iff.mp he
    have htags : (members.reverse.filter fun m => m.1 == "event") = tags (some kind) := by
      rw [List.filter_reverse, Event.kind?_eq_some_iff.mp hkind]
      rfl
    -- in the end one kind is named, so never more than one was
    obtain ⟨gathered, hgathered, hmatches⟩ :
        ∃ gathered, readMembers readEventMember (start.length + 1) true ⟨none, []⟩ start =
          .ok (gathered, rest) ∧ gathered.Matches members.reverse := by
      refine readMembers_simulates_of (R := fun members gathered => Gathered.Matches gathered members)
        (Q := NamesOneKind) ?_ ?_ Gathered.matches_nil hmembers ⟨_, htags⟩
      · exact fun _ _ _ _ _ => NamesOneKind.of_readMember
      · exact fun _ _ _ _ _ _ => readEventMember_of_readMember
    have hgatheredKind : gathered.kind = some kind := by
      rw [← hmatches.kind?_object, List.reverse_reverse, hkind]
    have hothers : gathered.members.reverse = members.filter fun m => m.1 != "event" := by
      rw [hmatches.others, List.filter_reverse, List.reverse_reverse]
    have hread : readEvent cs = .ok ((kind, .object gathered.members.reverse), rest) := by
      unfold readEvent
      rw [hopen]
      refine bind_eq_ok_iff.mpr ⟨_, hgathered, ?_⟩
      dsimp only
      rw [hgatheredKind]
    rw [hothers] at hread
    exact Event.read_eq_ok_iff.mpr ⟨kind, _, rest, hread, hfields, hend⟩

/-! ## Reading a written event -/

/-- The name of a kind is read back. -/
theorem readKind_print (kind : EventKind) (rest : List Char) :
    readKind (print (.text kind.name) ++ rest) = .ok (kind, rest) := by
  rw [print, printText_append]
  refine bind_eq_ok_iff.mpr ⟨_, readText_escaped kind.name rest, ?_⟩
  dsimp only
  rw [ofName?_name]

/-- The tag of an event is read as its kind, and gathers nothing. -/
theorem readEventMember_event (kind : EventKind) (members : List (String × Json))
    (rest : List Char) :
    readEventMember ⟨none, members⟩ "event" (':' :: (print (.text kind.name) ++ rest)) =
      .ok (⟨some kind, members⟩, rest) := by
  unfold readEventMember
  rw [if_pos rfl]
  refine (if_neg Bool.false_ne_true).trans ?_
  refine bind_eq_ok_iff.mpr ⟨print (.text kind.name) ++ rest, rfl, ?_⟩
  exact bind_eq_ok_iff.mpr ⟨_, readKind_print kind rest, rfl⟩

theorem readEventMember_other {m : String × Json} (hname : m.1 ≠ "event") {rest : List Char}
    (hm : readValue (maxDepth - 1) (print m.2 ++ rest) = .ok (m.2, rest)) (gathered : Gathered) :
    readEventMember gathered m.1 (':' :: (print m.2 ++ rest)) =
      .ok ({ gathered with members := m :: gathered.members }, rest) := by
  unfold readEventMember
  rw [if_neg hname, readMember_print hm]
  rfl

theorem Event.ne_event_of_mem_fields (e : Event) : ∀ m ∈ e.fields, m.1 ≠ "event" := by
  cases e with
  | beforeRun browser => simp [Event.fields]
  | beforeSpec spec => simp [Event.fields]
  | afterSpec spec results => simp [Event.fields]
  | afterRun details => simp [Event.fields]

/-- Members are gathered from the last to the first. -/
theorem foldl_gathered (kind : Option EventKind) (members done : List (String × Json)) :
    members.foldl (fun gathered m => { gathered with members := m :: gathered.members })
        (⟨kind, done⟩ : Gathered) =
      ⟨kind, members.reverse ++ done⟩ := by
  induction members generalizing done with
  | nil => rfl
  | cons m members ih =>
    rw [List.foldl_cons, ih, List.reverse_cons, List.append_assoc]
    rfl

/-- **A written event is read back**, if its fields are kept and its doubles are read back. -/
theorem Event.read_print {e : Event}
    (hkept : Kept (Event.ofFields? e.kind) (fun e => .object e.fields) maxDepth e)
    (hreal : ∀ x ∈ e.toJson.doubles, ReadsBack (.real x)) : Event.read e.toJson.print = .ok e := by
  have hfield : ∀ m ∈ e.fields, ∀ gathered rest, EndsNumeral rest →
      readEventMember gathered m.1 (':' :: (print m.2 ++ rest)) =
        .ok ({ gathered with members := m :: gathered.members }, rest) := by
    intro m hm gathered rest hrest
    have hdoubles : ∀ x ∈ m.2.doubles, ReadsBack (.real x) := fun x hx =>
      hreal x (mem_doubles_object.mpr ⟨m, List.mem_cons_of_mem _ hm, hx⟩)
    exact readEventMember_other (e.ne_event_of_mem_fields m hm)
      (readValue_print ((hkept.within.members m hm).readsBack hdoubles) hrest) gathered
  -- the kind comes first and is followed by the fields
  let body := printMember ("event", .text e.kind.name) ++ membersTail e.fields
  have hprint : e.toJson.print = '\x7b' :: body := by
    show '\x7b' :: printMembers (("event", .text e.kind.name) :: e.fields) = _
    rw [printMembers_cons]
  have hfuel : e.fields.length < body.length := by
    have htail := length_lt_length_membersTail e.fields
    rw [List.length_append]
    omega
  have hgathered : readMembers readEventMember (body.length + 1) true ⟨none, []⟩ body =
      .ok (⟨some e.kind, e.fields.reverse⟩, []) := by
    have htail := readMembers_membersTail hfield hfuel ⟨some e.kind, []⟩ []
    rw [foldl_gathered, List.append_nil, List.append_nil] at htail
    exact readMembers_succ_iff.mpr (Or.inr ⟨_, _, _, _, _, opensMember_first _ _,
      readText_escaped "event" _, readEventMember_event e.kind [] _, htail⟩)
  have hread : readEvent ('\x7b' :: body) = .ok ((e.kind, .object e.fields), []) := by
    refine bind_eq_ok_iff.mpr ⟨_, hgathered, ?_⟩
    dsimp only
    rw [List.reverse_reverse]
  rw [hprint]
  exact Event.read_eq_ok_iff.mpr ⟨_, _, _, hread, hkept.read_write, rfl⟩

end RunJournal
