import Mathlib.Data.List.Nodup

/-!
# Named values

The members of a record are pairs of a name and a value, of which the first pair of a name counts.
Where no name is repeated, a value is found under a name exactly if it stands there
(`lookup_eq_some_iff_mem`), and so the order of the members makes no difference (`lookup_perm`).
-/

namespace RunJournal

variable {β : Type*} {members members' : List (String × β)} {name : String} {v : β}

theorem lookup_cons (key : String) (m : String × β) (members : List (String × β)) :
    (m :: members).lookup key = if key = m.1 then some m.2 else members.lookup key := by
  obtain ⟨name, value⟩ := m
  rw [List.lookup_cons]
  by_cases h : key = name
  · rw [if_pos h, beq_iff_eq.mpr h]
  · rw [if_neg h, beq_eq_false_iff_ne.mpr h]

theorem mem_of_lookup (h : members.lookup name = some v) : (name, v) ∈ members := by
  obtain ⟨before, after, rfl, -⟩ := List.lookup_eq_some_iff.mp h
  simp

theorem lookup_eq_some_iff_mem (hnodup : (members.map Prod.fst).Nodup) :
    members.lookup name = some v ↔ (name, v) ∈ members := by
  induction members with
  | nil => simp
  | cons m members ih =>
    obtain ⟨hm, hnodup⟩ := List.nodup_cons.mp hnodup
    rw [lookup_cons, List.mem_cons, ← ih hnodup]
    by_cases hname : name = m.1
    · subst hname
      have hnone : members.lookup m.1 ≠ some v := fun hfound =>
        hm (List.mem_map.mpr ⟨_, (ih hnodup).mp hfound, rfl⟩)
      rw [if_pos rfl, or_iff_left hnone, Option.some_inj, Prod.ext_iff, eq_comm]
      exact (and_iff_right rfl).symm
    · rw [if_neg hname, or_iff_right]
      exact fun heq => hname (congrArg Prod.fst heq)

theorem lookup_eq_none_iff_forall : members.lookup name = none ↔ ∀ v, (name, v) ∉ members := by
  rw [List.lookup_eq_none_iff]
  constructor
  · intro h v hv
    have hne := h _ hv
    rw [bne_self_eq_false] at hne
    cases hne
  · rintro h ⟨other, v⟩ hv
    refine bne_iff_ne.mpr fun heq => h v ?_
    rw [heq]
    exact hv

/-- Where no name is repeated, the order of members does not matter. -/
theorem lookup_perm (hnodup : (members.map Prod.fst).Nodup) (hperm : members.Perm members') :
    members.lookup name = members'.lookup name := by
  have hnodup' : (members'.map Prod.fst).Nodup := (hperm.map Prod.fst).nodup_iff.mp hnodup
  refine Option.ext fun v => ?_
  rw [lookup_eq_some_iff_mem hnodup, lookup_eq_some_iff_mem hnodup', hperm.mem_iff]

/-- A member of another name is passed over. -/
theorem lookup_insert {key : String} (h : name ≠ key) (before after : List (String × β)) (v : β) :
    (before ++ (key, v) :: after).lookup name = (before ++ after).lookup name := by
  rw [List.lookup_append, List.lookup_append, lookup_cons, if_neg h]

end RunJournal
