import Mathlib.Data.String.Basic
import RunJournal.Proofs.Json.Shape
import RunJournal.Proofs.Named

/-!
# Canonical values

In a canonical value the members of every object are in increasing order of their names, and of
several members with one name only the last is left. So a sorted list of members is known from what
it gives for each name (`Sorted.ext`), and what `sortMembers` gives for a name is the last member of
that name (`lookup_sortMembers`). From these two facts follow

- that a sorted list is its own sorted form (`sortMembers_of_sorted`), and a canonical value its own
  canonical form (`canonical_canonical`);
- that two objects have the same canonical form when each name has the same last value in both
  (`sortMembers_congr`).
-/

namespace RunJournal.Json

/-- Members in strictly increasing order of their names. -/
def Sorted (members : List (String × Json)) : Prop := members.Pairwise fun m m' => m.1 < m'.1

/-! ## One member -/

/-- What stands in a sorted object after a member is set is that member, or stood there before. -/
theorem mem_setMember {name : String} {value : Json} {members : List (String × Json)}
    {m : String × Json} (h : m ∈ setMember name value members) :
    m = (name, value) ∨ m ∈ members := by
  -- the place is looked for from the least name on, so the members before it are passed
  induction members with
  | nil => exact Or.inl (List.mem_singleton.mp h)
  | cons head rest ih =>
    rw [setMember] at h
    split at h
    · exact List.mem_cons.mp h
    · split at h
      · rcases List.mem_cons.mp h with rfl | h
        · exact Or.inl rfl
        · exact Or.inr (List.mem_cons_of_mem _ h)
      · rcases List.mem_cons.mp h with rfl | h
        · exact Or.inr List.mem_cons_self
        · exact (ih h).imp_right (List.mem_cons_of_mem _)

/-- Setting a member leaves the members sorted, with each name once. -/
theorem Sorted.setMember {members : List (String × Json)} (h : Sorted members) (name : String)
    (value : Json) : Sorted (setMember name value members) := by
  induction members with
  | nil => exact List.pairwise_singleton _ _
  | cons head rest ih =>
    obtain ⟨hhead, hrest⟩ := List.pairwise_cons.mp h
    rw [Json.setMember]
    -- the new name comes before the head, is the head's, or belongs further on
    split
    · rename_i hlt
      refine List.pairwise_cons.mpr ⟨fun m hm => ?_, h⟩
      rcases List.mem_cons.mp hm with rfl | hm
      · exact hlt
      · exact lt_trans hlt (hhead m hm)
    · split
      · rename_i heq
        subst heq
        exact List.pairwise_cons.mpr ⟨hhead, hrest⟩
      · rename_i hnot hne
        refine List.pairwise_cons.mpr ⟨fun m hm => ?_, ih hrest⟩
        rcases mem_setMember hm with rfl | hm
        · exact lt_of_le_of_ne (not_lt.mp hnot) (Ne.symm hne)
        · exact hhead m hm

/-- Setting a member decides what is found under its name, and nothing else. -/
theorem lookup_setMember (key name : String) (value : Json) (members : List (String × Json)) :
    (setMember name value members).lookup key =
      if key = name then some value else members.lookup key := by
  induction members with
  | nil => exact lookup_cons key (name, value) []
  | cons head rest ih =>
    rw [setMember]
    split
    · exact lookup_cons key (name, value) (head :: rest)
    · split
      · rename_i heq
        rw [lookup_cons, lookup_cons, heq]
        by_cases h : key = head.1
        · rw [if_pos h, if_pos h]
        · rw [if_neg h, if_neg h, if_neg h]
      · rename_i hne
        rw [lookup_cons, lookup_cons, ih]
        by_cases h : key = head.1
        · have hkey : key ≠ name := fun hname => hne (hname.symm.trans h)
          rw [if_pos h, if_pos h, if_neg hkey]
        · rw [if_neg h, if_neg h]

/-! ## All members -/

/-- Members that are set one after the other are sorted, and the last of each name wins. -/
theorem foldl_setMember_spec (members sorted : List (String × Json)) (hsorted : Sorted sorted) :
    Sorted (members.foldl (fun sorted m => setMember m.1 m.2 sorted) sorted) ∧
    (∀ m ∈ members.foldl (fun sorted m => setMember m.1 m.2 sorted) sorted,
      m ∈ members ∨ m ∈ sorted) ∧
    ∀ key, (members.foldl (fun sorted m => setMember m.1 m.2 sorted) sorted).lookup key =
      (members.reverse.lookup key).or (sorted.lookup key) := by
  induction members generalizing sorted with
  | nil => exact ⟨hsorted, fun m hm => Or.inr hm, fun key => rfl⟩
  | cons m members ih =>
    obtain ⟨hsorted', hmem, hlookup⟩ := ih _ (hsorted.setMember m.1 m.2)
    refine ⟨hsorted', fun m' hm' => ?_, fun key => ?_⟩
    · rcases hmem m' hm' with hm' | hm'
      · exact Or.inl (List.mem_cons_of_mem m hm')
      · rcases mem_setMember hm' with rfl | hm'
        · exact Or.inl List.mem_cons_self
        · exact Or.inr hm'
    · rw [List.foldl_cons, hlookup, lookup_setMember, List.reverse_cons, List.lookup_append,
        Option.or_assoc, lookup_cons]
      by_cases h : key = m.1
      · rw [if_pos h, if_pos h, Option.some_or]
      · rw [if_neg h, if_neg h, List.lookup_nil, Option.none_or]

/-- Sorted members are sorted. -/
theorem sorted_sortMembers (members : List (String × Json)) : Sorted (sortMembers members) :=
  (foldl_setMember_spec members [] .nil).1

theorem mem_of_mem_sortMembers {members : List (String × Json)} {m : String × Json}
    (h : m ∈ sortMembers members) : m ∈ members :=
  ((foldl_setMember_spec members [] .nil).2.1 m h).resolve_right List.not_mem_nil

/-- Of members with one name the last is kept. -/
theorem lookup_sortMembers (members : List (String × Json)) (key : String) :
    (sortMembers members).lookup key = members.reverse.lookup key := by
  have h := (foldl_setMember_spec members [] .nil).2.2 key
  rw [List.lookup_nil, Option.or_none] at h
  exact h

/-- A name that is not above the first is in none of the members behind it. -/
theorem Sorted.lookup_eq_none {m : String × Json} {members : List (String × Json)}
    (h : Sorted (m :: members)) {key : String} (hkey : key ≤ m.1) : members.lookup key = none := by
  refine List.lookup_eq_none_iff.mpr fun m' hm' => ?_
  have hlt := (List.pairwise_cons.mp h).1 m' hm'
  exact bne_iff_ne.mpr (ne_of_lt (lt_of_le_of_lt hkey hlt))

/-- **Sorted members are known from what they give for each name.** -/
theorem Sorted.ext {s t : List (String × Json)} (hs : Sorted s) (ht : Sorted t)
    (h : ∀ key, s.lookup key = t.lookup key) : s = t := by
  induction s generalizing t with
  | nil =>
    cases t with
    | nil => rfl
    | cons m t =>
      have hm := h m.1
      rw [lookup_cons, if_pos rfl] at hm
      cases hm
  | cons m s ih =>
    cases t with
    | nil =>
      have hm := h m.1
      rw [lookup_cons, if_pos rfl] at hm
      cases hm
    | cons m' t =>
      -- the first names agree, because each is found on the other side
      have hname : m.1 = m'.1 := by
        rcases lt_trichotomy m.1 m'.1 with hlt | heq | hlt
        · have hfound := h m.1
          rw [lookup_cons, lookup_cons, if_pos rfl, if_neg hlt.ne,
            ht.lookup_eq_none hlt.le] at hfound
          cases hfound
        · exact heq
        · have hfound := h m'.1
          rw [lookup_cons, lookup_cons, if_pos rfl, if_neg hlt.ne,
            hs.lookup_eq_none hlt.le] at hfound
          cases hfound
      have hvalue : m.2 = m'.2 := by
        have hfound := h m.1
        rw [lookup_cons, lookup_cons, if_pos rfl, if_pos hname] at hfound
        exact Option.some.inj hfound
      have hrest : s = t := by
        refine ih hs.of_cons ht.of_cons fun key => ?_
        by_cases hkey : key = m.1
        · rw [hs.lookup_eq_none hkey.le, ht.lookup_eq_none (hkey.trans hname).le]
        · have hfound := h key
          rw [lookup_cons, lookup_cons, if_neg hkey, if_neg (hname ▸ hkey)] at hfound
          exact hfound
      rw [hrest, Prod.ext hname hvalue]

/-- What is found under a name is found among the members that were picked by name. -/
theorem lookup_filter {key : String} {p : String × Json → Bool} (hp : ∀ v, p (key, v) = true)
    (members : List (String × Json)) : (members.filter p).lookup key = members.lookup key := by
  induction members with
  | nil => rfl
  | cons m members ih =>
    rw [List.filter_cons, lookup_cons]
    by_cases hkey : key = m.1
    · have hm : p m = true := by
        have hpair := hp m.2
        rw [hkey] at hpair
        exact hpair
      rw [if_pos hm, lookup_cons, if_pos hkey, if_pos hkey]
    · rw [if_neg hkey]
      split
      · rw [lookup_cons, if_neg hkey, ih]
      · exact ih

/-- Two lists of members are sorted alike if each name has the same last value in both. -/
theorem sortMembers_congr {s t : List (String × Json)}
    (h : ∀ key, s.reverse.lookup key = t.reverse.lookup key) : sortMembers s = sortMembers t :=
  (sorted_sortMembers s).ext (sorted_sortMembers t) fun key => by
    rw [lookup_sortMembers, lookup_sortMembers, h]

/-- The only member of a name is the first and the last. -/
theorem Sorted.lookup_reverse {members : List (String × Json)} (h : Sorted members) (key : String) :
    members.reverse.lookup key = members.lookup key := by
  induction members with
  | nil => rfl
  | cons m members ih =>
    rw [List.reverse_cons, List.lookup_append, ih h.of_cons, lookup_cons, lookup_cons]
    by_cases hkey : key = m.1
    · rw [h.lookup_eq_none hkey.le, if_pos hkey, if_pos hkey, Option.none_or]
    · rw [if_neg hkey, if_neg hkey, List.lookup_nil, Option.or_none]

/-- Sorted members are their own sorted form. -/
theorem sortMembers_of_sorted {members : List (String × Json)} (h : Sorted members) :
    sortMembers members = members :=
  (sorted_sortMembers members).ext h fun key => by rw [lookup_sortMembers, h.lookup_reverse]

/-! ## Canonical values -/

theorem canonicalItems_eq (items : List Json) : canonicalItems items = items.map canonical := by
  induction items with
  | nil => rfl
  | cons v items ih => rw [canonicalItems, List.map_cons, ih]

theorem canonicalMembers_eq (members : List (String × Json)) :
    canonicalMembers members = members.map fun m => (m.1, m.2.canonical) := by
  induction members with
  | nil => rfl
  | cons m members ih => rw [canonicalMembers, List.map_cons, ih]

/-- To change values and to set a member can be done in either order. -/
theorem setMember_map (f : Json → Json) (name : String) (value : Json)
    (members : List (String × Json)) :
    setMember name (f value) (members.map fun m => (m.1, f m.2)) =
      (setMember name value members).map fun m => (m.1, f m.2) := by
  induction members with
  | nil => rfl
  | cons m members ih =>
    rw [List.map_cons, setMember, setMember]
    split
    · rfl
    · split
      · rfl
      · rw [ih, List.map_cons]

/-- Sorting looks at names only. -/
theorem sortMembers_map (f : Json → Json) (members : List (String × Json)) :
    sortMembers (members.map fun m => (m.1, f m.2)) =
      (sortMembers members).map fun m => (m.1, f m.2) := by
  have hfold : ∀ sorted : List (String × Json),
      (members.map fun m => (m.1, f m.2)).foldl (fun sorted m => setMember m.1 m.2 sorted)
        (sorted.map fun m => (m.1, f m.2)) =
      (members.foldl (fun sorted m => setMember m.1 m.2 sorted) sorted).map
        fun m => (m.1, f m.2) := by
    induction members with
    | nil => exact fun sorted => rfl
    | cons m members ih =>
      intro sorted
      rw [List.map_cons, List.foldl_cons, List.foldl_cons, setMember_map, ih]
  exact hfold []

/-- Members can be sorted before or after their values are made canonical. -/
theorem canonicalMembers_sortMembers (members : List (String × Json)) :
    canonicalMembers (sortMembers members) = sortMembers (canonicalMembers members) := by
  rw [canonicalMembers_eq, canonicalMembers_eq, sortMembers_map]

theorem canonicalMembers_of_values {members : List (String × Json)}
    (h : ∀ m ∈ members, m.2.canonical.canonical = m.2.canonical) :
    canonicalMembers (canonicalMembers members) = canonicalMembers members := by
  rw [canonicalMembers_eq, canonicalMembers_eq, List.map_map]
  exact List.map_congr_left fun m hm => Prod.ext rfl (h m hm)

/-- **A canonical value is its own canonical form.** -/
@[simp] theorem canonical_canonical (v : Json) : v.canonical.canonical = v.canonical := by
  induction v using Json.induction with
  | null => rfl
  | bool b => rfl
  | number n => rfl
  | text s => rfl
  | array items ih =>
    simp only [canonical, canonicalItems_eq, List.map_map, Json.array.injEq]
    exact List.map_congr_left ih
  | object members ih =>
    rw [canonical, canonical, canonicalMembers_sortMembers, canonicalMembers_of_values ih,
      sortMembers_of_sorted (sorted_sortMembers _)]

/-- What is canonical is its own canonical form. -/
theorem canonicalMembers_canonicalMembers (members : List (String × Json)) :
    canonicalMembers (canonicalMembers members) = canonicalMembers members :=
  canonicalMembers_of_values fun m _ => canonical_canonical m.2

/-- The canonical form is nested no deeper and has no other numbers. -/
theorem Within.canonical {P : Number → Prop} {depth : Nat} {v : Json} (h : Within P depth v) :
    Within P depth v.canonical := by
  induction h with
  | null depth => exact .null depth
  | bool depth b => exact .bool depth b
  | number depth hn => exact .number depth hn
  | text depth s => exact .text depth s
  | array _ ih =>
    rw [Json.canonical, canonicalItems_eq]
    refine .array fun v hv => ?_
    obtain ⟨w, hw, rfl⟩ := List.mem_map.mp hv
    exact ih w hw
  | object _ ih =>
    rw [Json.canonical, canonicalMembers_eq]
    refine .object fun m hm => ?_
    obtain ⟨m', hm', rfl⟩ := List.mem_map.mp (mem_of_mem_sortMembers hm)
    exact ih m' hm'

end RunJournal.Json
