import Mathlib.Data.Option.Basic
import RunJournal.Json.Record
import RunJournal.Proofs.Json.Canonical

/-!
# Values that differ in what their readers pass over

A reader of records looks for members by their names. So it does not notice in which order they
stand, nor whether there are others. What it looks at is its `Schema`; and `Edit schema` changes a
value where a reader with this schema does not look: it reorders the members of an object at any
depth, and inserts members into records that do not know them.

A reader is `Insensitive` if no such change shows in what it makes of a value. That is proved once
for each way in which readers are put together: for scalars, for lists, for the members of a record
(`insensitive_record`), and for canonical forms, which keep every member but not their order
(`insensitive_canonical`).
-/

namespace RunJournal.Json

/-- What a reader looks at in a value. -/
inductive Schema where
  /-- At everything. -/
  | any
  /-- At the items of an array. -/
  | list (item : Schema)
  /-- At these members of an object, and at no others. -/
  | record (fields : List (String × Schema))

namespace Schema

/-- What is looked at in the value of a member. -/
def member (name : String) : Schema → Schema
  | record fields => (fields.lookup name).getD any
  | _ => any

/-- What is looked at in the items of an array, where arrays are looked into. -/
def item? : Schema → Option Schema
  | any => some any
  | list item => some item
  | record _ => none

/-- Whether members of this name are passed over. -/
def Ignores (name : String) : Schema → Prop
  | record fields => name ∉ fields.map Prod.fst
  | _ => False

end Schema

/-- A change of a value that a reader passes over. -/
inductive Edit : Schema → Json → Json → Prop where
  /-- Members with different names stand in another order. -/
  | reorder {schema : Schema} {members members' : List (String × Json)}
      (hnodup : (members.map Prod.fst).Nodup) (hperm : members.Perm members') :
      Edit schema (.object members) (.object members')
  /-- A member is inserted that the reader does not know. -/
  | insert {schema : Schema} {name : String} (before after : List (String × Json)) (v : Json)
      (hname : schema.Ignores name) :
      Edit schema (.object (before ++ after)) (.object (before ++ (name, v) :: after))
  /-- The value of a member is changed. -/
  | member {schema : Schema} {name : String} {v w : Json} (before after : List (String × Json))
      (hvalue : Edit (schema.member name) v w) :
      Edit schema (.object (before ++ (name, v) :: after))
        (.object (before ++ (name, w) :: after))
  /-- An item of an array is changed. -/
  | item {schema inner : Schema} {v w : Json} (before after : List Json)
      (hinner : schema.item? = some inner) (hitem : Edit inner v w) :
      Edit schema (.array (before ++ v :: after)) (.array (before ++ w :: after))

/-- Whether changes that a reader passes over do not show in what it makes of a value. -/
def Insensitive {α : Type} (read : Json → α) (schema : Schema) : Prop :=
  ∀ ⦃v w : Json⦄, Edit schema v w → read v = read w

/-! ## Members in another order -/

theorem sortMembers_perm {members members' : List (String × Json)}
    (hnodup : (members.map Prod.fst).Nodup) (hperm : members.Perm members') :
    sortMembers members = sortMembers members' := by
  refine sortMembers_congr fun key => lookup_perm ?_ ?_
  · exact (members.reverse_perm.map Prod.fst).nodup_iff.mpr hnodup
  · exact (members.reverse_perm.trans hperm).trans members'.reverse_perm.symm

/-! ## Scalars, lists and whole values -/

section Readers

variable {α : Type} {read : Json → Option α} {schema : Schema}

/-- Nothing is changed in a value that is no array and no object. -/
theorem insensitive_scalar (harray : ∀ items, read (.array items) = none)
    (hobject : ∀ members, read (.object members) = none) : Insensitive read schema := by
  intro v w h
  cases h with
  | reorder hnodup hperm => rw [hobject, hobject]
  | insert before after v hname => rw [hobject, hobject]
  | member before after hvalue => rw [hobject, hobject]
  | item before after hinner hitem => rw [harray, harray]

theorem insensitive_text : Insensitive asText schema := insensitive_scalar (fun _ => rfl) fun _ => rfl

theorem insensitive_natBelow (limit : Nat) : Insensitive (asNatBelow limit) schema :=
  insensitive_scalar (fun _ => rfl) fun _ => rfl

theorem Insensitive.orNull (hread : Insensitive read schema) : Insensitive (orNull read) schema := by
  intro v w h
  have hsame := hread h
  cases h with
  | reorder hnodup hperm => exact congrArg (Option.map some) hsame
  | insert before after v hname => exact congrArg (Option.map some) hsame
  | member before after hvalue => exact congrArg (Option.map some) hsame
  | item before after hinner hitem => exact congrArg (Option.map some) hsame

theorem Insensitive.asList (hread : Insensitive read schema) :
    Insensitive (asList read) (.list schema) := by
  intro v w h
  cases h with
  | reorder hnodup hperm => rfl
  | insert before after v hname => rfl
  | member before after hvalue => rfl
  | item before after hinner hitem =>
    cases hinner
    show (before ++ _ :: after).mapM read = (before ++ _ :: after).mapM read
    rw [List.mapM_append, List.mapM_append, List.mapM_cons, List.mapM_cons, hread hitem]

/-- **A canonical form** keeps every member, but not their order. -/
theorem insensitive_canonical : Insensitive canonical .any := by
  intro v w h
  -- the schema of a member or an item is again that of everything
  generalize hschema : Schema.any = schema at h
  induction h with
  | reorder hnodup hperm =>
    rw [canonical, canonical, canonicalMembers_eq, canonicalMembers_eq]
    refine congrArg _ (sortMembers_perm ?_ (hperm.map _))
    rwa [List.map_map]
  | insert before after v hname =>
    subst hschema
    exact hname.elim
  | member before after hvalue ih =>
    subst hschema
    simp only [canonical, canonicalMembers_eq, List.map_append, List.map_cons, ih rfl]
  | item before after hinner hitem ih =>
    subst hschema
    cases hinner
    simp only [canonical, canonicalItems_eq, List.map_append, List.map_cons, ih rfl]

end Readers

/-! ## Records -/

/-- What is found under a name before and after a change. -/
inductive EditedAt (schema : Schema) : Option Json → Option Json → Prop where
  | same (found : Option Json) : EditedAt schema found found
  | edited {v w : Json} (h : Edit schema v w) : EditedAt schema (some v) (some w)

/-- The fields of a record before and after a change. -/
def FieldsEdited (known : List (String × Schema)) (fields fields' : List (String × Json)) : Prop :=
  ∀ name, EditedAt ((Schema.record known).member name) (fields.lookup name) (fields'.lookup name)

section Records

variable {known : List (String × Schema)}

theorem FieldsEdited.refl (fields : List (String × Json)) : FieldsEdited known fields fields :=
  fun _ => .same _

/-- The change of a member shows under its name at most. -/
theorem FieldsEdited.member {name : String} {v w : Json}
    (hvalue : Edit ((Schema.record known).member name) v w) (before after : List (String × Json)) :
    FieldsEdited known (before ++ (name, v) :: after) (before ++ (name, w) :: after) := by
  intro key
  rw [List.lookup_append, List.lookup_append, lookup_cons, lookup_cons]
  cases before.lookup key with
  | some found => exact .same _
  | none =>
    rw [Option.none_or, Option.none_or]
    by_cases hkey : key = name
    · subst hkey
      rw [if_pos rfl, if_pos rfl]
      exact .edited hvalue
    · rw [if_neg hkey, if_neg hkey]
      exact .same _

/-- A change that is passed over gives a record the same fields, up to such changes. -/
theorem Edit.fields? {v w : Json} (h : Edit (.record known) v w) :
    Option.Rel (FieldsEdited known) (fields? (known.map Prod.fst) v)
      (fields? (known.map Prod.fst) w) := by
  cases h with
  | @reorder _ members members' hnodup hperm =>
    have hfilter := hperm.filter fun m => (known.map Prod.fst).contains m.1
    have hknown : ((members.filter fun m => (known.map Prod.fst).contains m.1).map
        Prod.fst).Nodup := hnodup.sublist (List.filter_sublist.map _)
    have hknown' := (hfilter.map Prod.fst).nodup_iff.mp hknown
    rw [Json.fields?, Json.fields?, if_pos hknown, if_pos hknown']
    refine .some fun name => ?_
    rw [lookup_perm hknown hfilter]
    exact .same _
  | @insert _ name before after v hname =>
    have hunknown : (known.map Prod.fst).contains name = false := by
      rw [← Bool.not_eq_true, List.contains_iff_mem]
      exact hname
    simp only [Json.fields?, List.filter_append, List.filter_cons, hunknown, Bool.false_eq_true,
      if_false]
    split
    -- what is not known is dropped on both sides
    · exact .some (.refl _)
    · exact .none
  | @member _ name v w before after hvalue =>
    simp only [Json.fields?, List.filter_append, List.filter_cons]
    -- an edit inside a member shows only if the record knows the member
    by_cases hname : (known.map Prod.fst).contains name = true
    · simp only [if_pos hname, List.map_append, List.map_cons]
      split
      · exact .some (.member hvalue _ _)
      · exact .none
    · simp only [if_neg hname]
      split
      · exact .some (.refl _)
      · exact .none
  | item before after hinner hitem => cases hinner

variable {α : Type} {fields fields' : List (String × Json)} {read : Json → Option α}

theorem FieldsEdited.required (h : FieldsEdited known fields fields') (name : String)
    (hread : Insensitive read ((Schema.record known).member name)) :
    required fields name read = required fields' name read := by
  have hfound := h name
  unfold Json.required
  generalize fields.lookup name = found at hfound ⊢
  generalize fields'.lookup name = found' at hfound ⊢
  cases hfound with
  | same found => rfl
  | edited hvalue => exact hread hvalue

theorem FieldsEdited.optional (h : FieldsEdited known fields fields') (name : String)
    (hread : Insensitive read ((Schema.record known).member name)) (default : α) :
    optional fields name read default = optional fields' name read default := by
  have hfound := h name
  unfold Json.optional
  generalize fields.lookup name = found at hfound ⊢
  generalize fields'.lookup name = found' at hfound ⊢
  cases hfound with
  | same found => rfl
  | edited hvalue => exact hread hvalue

/-- **A record** is read alike if each of its fields is. -/
theorem insensitive_record (known : List (String × Schema)) {make : List (String × Json) → Option α}
    (hmake : ∀ fields fields', FieldsEdited known fields fields' → make fields = make fields') :
    Insensitive (fun v => (Json.fields? (known.map Prod.fst) v).bind make) (.record known) := by
  intro v w h
  have hfields := h.fields?
  dsimp only
  generalize Json.fields? (known.map Prod.fst) v = fields at hfields ⊢
  generalize Json.fields? (known.map Prod.fst) w = fields' at hfields ⊢
  cases hfields with
  | some hfields => exact hmake _ _ hfields
  | none => rfl

end Records

/-! ## A member set apart -/

/-- No text is changed. -/
theorem Edit.ne_text {schema : Schema} {v w : Json} (h : Edit schema v w) (s : String) :
    v ≠ .text s ∧ w ≠ .text s := by
  cases h with
  | reorder hnodup hperm => exact ⟨nofun, nofun⟩
  | insert before after v hname => exact ⟨nofun, nofun⟩
  | member before after hvalue => exact ⟨nofun, nofun⟩
  | item before after hinner hitem => exact ⟨nofun, nofun⟩

/-- What is found under a name does not change with the order, where no name is repeated. -/
theorem filter_name_perm {members members' : List (String × Json)} (name : String)
    (hnodup : (members.map Prod.fst).Nodup) (hperm : members.Perm members') :
    (members.filter fun m => m.1 == name) = members'.filter fun m => m.1 == name := by
  have hfilter := hperm.filter fun m => m.1 == name
  have hnames : ∀ m ∈ members.filter fun m => m.1 == name, m.1 = name := fun m hm =>
    beq_iff_eq.mp (List.mem_filter.mp hm).2
  have hfound : ((members.filter fun m => m.1 == name).map Prod.fst).Nodup :=
    hnodup.sublist (List.filter_sublist.map _)
  cases hmembers : members.filter fun m => m.1 == name with
  | nil =>
    rw [hmembers] at hfilter
    exact hfilter.nil_eq
  | cons m rest =>
    rw [hmembers] at hfilter hnames hfound
    cases rest with
    | nil => exact (List.singleton_perm.mp hfilter)
    | cons m' rest =>
      -- two members of this name would repeat it
      have hrepeated : m.1 ∈ (m' :: rest).map Prod.fst := by
        rw [hnames m List.mem_cons_self,
          ← hnames m' (List.mem_cons_of_mem _ List.mem_cons_self)]
        exact List.mem_cons_self
      exact absurd hrepeated (List.nodup_cons.mp hfound).1

/-- **A member is set apart.** A change of an object that has one member looked at as a whole does
not show in the text of that member, and is a change of what is left without it. -/
theorem Edit.setApart {schema : Schema} {members : List (String × Json)} {w : Json}
    (h : Edit schema (.object members) w) (rest : Schema) (name : String)
    (hname : schema.member name = .any)
    (hknown : ¬ schema.Ignores name)
    (hmember : ∀ other, other ≠ name → schema.member other = rest.member other)
    (hignores : ∀ other, other ≠ name → schema.Ignores other → rest.Ignores other) :
    ∃ members', w = .object members' ∧ onlyText? name members = onlyText? name members' ∧
      ((members.filter fun m => m.1 != name) = (members'.filter fun m => m.1 != name) ∨
        Edit rest (.object (members.filter fun m => m.1 != name))
          (.object (members'.filter fun m => m.1 != name))) := by
  generalize hv : Json.object members = v at h
  cases h with
  | @reorder _ _ members' hnodup hperm =>
    cases hv
    refine ⟨members', rfl, ?_, Or.inr (.reorder ?_ (hperm.filter _))⟩
    · rw [onlyText?, onlyText?, filter_name_perm name hnodup hperm]
    · exact hnodup.sublist (List.filter_sublist.map _)
  | @insert _ other before after v hother =>
    cases hv
    have hne : other ≠ name := fun heq => hknown (heq ▸ hother)
    refine ⟨_, rfl, ?_, Or.inr ?_⟩
    · simp only [onlyText?, List.filter_append, List.filter_cons, beq_eq_false_iff_ne.mpr hne,
        Bool.false_eq_true, if_false]
    · simp only [List.filter_append, List.filter_cons, bne_iff_ne.mpr hne, if_true]
      exact .insert _ _ v (hignores other hne hother)
  | @member _ other v w before after hvalue =>
    cases hv
    refine ⟨_, rfl, ?_⟩
    -- the edit is inside the value that is set apart, or among the rest
    by_cases hother : other = name
    · subst hother
      refine ⟨Option.ext fun s => ?_, Or.inl ?_⟩
      -- a value that can be edited inside is no text, before or after
      · have hnone : ∀ u, u ≠ Json.text s →
            onlyText? other (before ++ (other, u) :: after) ≠ some s := by
          intro u hu hfound
          have hmem : (other, u) ∈ (before ++ (other, u) :: after).filter fun m => m.1 == other :=
            List.mem_filter.mpr ⟨List.mem_append_right _ List.mem_cons_self, beq_self_eq_true _⟩
          rw [onlyText?_eq_some_iff.mp hfound, List.mem_singleton] at hmem
          exact hu (congrArg Prod.snd hmem)
        exact iff_of_false (hnone v (hvalue.ne_text s).1) (hnone w (hvalue.ne_text s).2)
      · simp only [List.filter_append, List.filter_cons, bne_self_eq_false, Bool.false_eq_true,
          if_false]
    · refine ⟨?_, Or.inr ?_⟩
      · simp only [onlyText?, List.filter_append, List.filter_cons,
          beq_eq_false_iff_ne.mpr hother, Bool.false_eq_true, if_false]
      · simp only [List.filter_append, List.filter_cons, bne_iff_ne.mpr hother, if_true]
        exact .member _ _ (hmember other hother ▸ hvalue)
  | item before after hinner hitem => cases hv

end RunJournal.Json
