import RunJournal.Proofs.Json.Shape
import RunJournal.Proofs.Json.Token

/-!
# What the reader returns

The loops of the reader are taken apart one round at a time: `readItems_succ_iff` and
`readMembers_succ_iff` say when a round succeeds and with what. From there

- a property of all items follows from one of each (`forall_of_readItems`);
- two readers of members that keep step with each other member by member keep step over the whole
  object (`readMembers_simulates`), which also carries an invariant of a single reader; it is enough
  if they keep step towards what is gathered in the end (`readMembers_simulates_of`).

With them, a value that was read is nested no deeper than the reader allowed, and its integers are
in range (`within_of_readValue`).
-/

namespace RunJournal.Json

/-! ## Rounds -/

/-- Whether an item begins at `start`, in a text in which it is the first or comes after another. -/
def OpensItem (first : Bool) (cs start : List Char) : Prop :=
  (∃ c tail, start = c :: tail ∧ c ≠ ']') ∧
    if first then skipSpace cs = start
    else ∃ tail, skipSpace cs = ',' :: tail ∧ skipSpace tail = start

/-- Whether `start` comes after the quote that opens the name of a member. -/
def OpensMember (first : Bool) (cs start : List Char) : Prop :=
  if first then skipSpace cs = '"' :: start
  else ∃ tail, skipSpace cs = ',' :: tail ∧ skipSpace tail = '"' :: start

/-- One round over the items of an array. -/
theorem readItems_succ_iff {α : Type} {item : List Char → Parsed α} {fuel : Nat} {first : Bool}
    {done vs : List α} {cs rest : List Char} :
    readItems item (fuel + 1) first done cs = .ok (vs, rest) ↔
      (skipSpace cs = ']' :: rest ∧ vs = done.reverse) ∨
      ∃ start v after, OpensItem first cs start ∧ item start = .ok (v, after) ∧
        readItems item fuel false (v :: done) after = .ok (vs, rest) := by
  constructor
  -- an answer shows which way the reader went: it closed, or it read an item and went on
  · intro h
    rw [readItems] at h
    split at h
    · cases h
    · rename_i hspace
      cases h
      exact Or.inl ⟨hspace, rfl⟩
    · rename_i c tail hc hspace
      refine Or.inr ?_
      split at h
      · rename_i hfirst
        obtain ⟨⟨v, after⟩, hitem, hrest⟩ := bind_eq_ok_iff.mp h
        refine ⟨_, v, after, ⟨⟨c, tail, rfl, hc⟩, ?_⟩, hitem, hrest⟩
        rw [if_pos hfirst, hspace]
      · rename_i hfirst
        split at h
        · rename_i hcomma
          subst hcomma
          split at h
          · cases h
          · cases h
          -- behind a comma neither the end of the text nor a closing bracket may come
          · rename_i hnil hclose
            obtain ⟨⟨v, after⟩, hitem, hrest⟩ := bind_eq_ok_iff.mp h
            obtain ⟨c, start, hstart⟩ := List.exists_cons_of_ne_nil hnil
            refine ⟨_, v, after, ⟨⟨c, start, hstart, ?_⟩, ?_⟩, hitem, hrest⟩
            · rintro rfl
              exact hclose start hstart
            · rw [if_neg hfirst]
              exact ⟨tail, hspace, rfl⟩
        · cases h
  · rintro (⟨hspace, rfl⟩ | ⟨_, v, after, ⟨⟨c, tail, rfl, hc⟩, hopens⟩, hitem, hrest⟩)
    · rw [readItems, hspace]
      rfl
    -- the first item stands where it is looked for, any other behind a comma
    · cases first with
      | true =>
        have hspace : skipSpace cs = c :: tail := hopens
        rw [readItems, hspace]
        split
        · rename_i heq
          cases heq
        · rename_i heq
          cases heq
          exact absurd rfl hc
        · rename_i heq
          cases heq
          exact bind_eq_ok_iff.mpr ⟨_, hitem, hrest⟩
      | false =>
        obtain ⟨more, hcomma, hspace⟩ :
          ∃ more, skipSpace cs = ',' :: more ∧ skipSpace more = c :: tail := hopens
        rw [readItems, hcomma]
        refine (if_neg Bool.false_ne_true).trans ((if_pos rfl).trans ?_)
        rw [hspace]
        split
        · rename_i heq
          cases heq
        · rename_i heq
          cases heq
          exact absurd rfl hc
        · exact bind_eq_ok_iff.mpr ⟨_, hitem, hrest⟩

/-- One round over the members of an object. -/
theorem readMembers_succ_iff {σ : Type} {member : σ → String → List Char → Parsed σ} {fuel : Nat}
    {first : Bool} {gathered gathered' : σ} {cs rest : List Char} :
    readMembers member (fuel + 1) first gathered cs = .ok (gathered', rest) ↔
      (skipSpace cs = '\x7d' :: rest ∧ gathered' = gathered) ∨
      ∃ start name value next after, OpensMember first cs start ∧
        readText start = .ok (name, value) ∧ member gathered name value = .ok (next, after) ∧
        readMembers member fuel false next after = .ok (gathered', rest) := by
  constructor
  -- as for items, but a member begins with the quote of its name
  · intro h
    rw [readMembers] at h
    split at h
    · cases h
    · rename_i hspace
      cases h
      exact Or.inl ⟨hspace, rfl⟩
    · rename_i c tail hc hspace
      refine Or.inr ?_
      split at h
      · rename_i hfirst
        split at h
        · rename_i hquote
          subst hquote
          obtain ⟨⟨name, value⟩, hname, h⟩ := bind_eq_ok_iff.mp h
          obtain ⟨⟨next, after⟩, hmember, hrest⟩ := bind_eq_ok_iff.mp h
          refine ⟨tail, name, value, next, after, ?_, hname, hmember, hrest⟩
          rw [OpensMember, if_pos hfirst, hspace]
        · cases h
      · rename_i hfirst
        split at h
        · rename_i hcomma
          subst hcomma
          split at h
          · cases h
          · rename_i start hstart
            obtain ⟨⟨name, value⟩, hname, h⟩ := bind_eq_ok_iff.mp h
            obtain ⟨⟨next, after⟩, hmember, hrest⟩ := bind_eq_ok_iff.mp h
            refine ⟨start, name, value, next, after, ?_, hname, hmember, hrest⟩
            rw [OpensMember, if_neg hfirst]
            exact ⟨tail, hspace, hstart⟩
          · cases h
        · cases h
  · rintro (⟨hspace, rfl⟩ | ⟨start, name, value, next, after, hopens, hname, hmember, hrest⟩)
    · rw [readMembers, hspace]
      rfl
    · cases first with
      | true =>
        have hspace : skipSpace cs = '"' :: start := hopens
        rw [readMembers, hspace]
        refine (if_pos rfl).trans ((if_pos rfl).trans ?_)
        exact bind_eq_ok_iff.mpr ⟨_, hname, bind_eq_ok_iff.mpr ⟨_, hmember, hrest⟩⟩
      | false =>
        obtain ⟨more, hcomma, hspace⟩ :
          ∃ more, skipSpace cs = ',' :: more ∧ skipSpace more = '"' :: start := hopens
        rw [readMembers, hcomma]
        refine (if_neg Bool.false_ne_true).trans ((if_pos rfl).trans ?_)
        rw [hspace]
        exact bind_eq_ok_iff.mpr ⟨_, hname, bind_eq_ok_iff.mpr ⟨_, hmember, hrest⟩⟩

/-! ## Loops -/

/-- What holds of every item that can be read holds of all the items of an array. -/
theorem forall_of_readItems {α : Type} {item : List Char → Parsed α} {P : α → Prop}
    (hitem : ∀ cs v rest, item cs = .ok (v, rest) → P v) {fuel : Nat} {first : Bool}
    {done vs : List α} {cs rest : List Char} (hdone : ∀ v ∈ done, P v)
    (h : readItems item fuel first done cs = .ok (vs, rest)) : ∀ v ∈ vs, P v := by
  induction fuel generalizing first done cs with
  | zero => cases h
  | succ fuel ih =>
    rcases readItems_succ_iff.mp h with ⟨-, rfl⟩ | ⟨start, v, after, -, hv, hafter⟩
    · exact fun v hv => hdone v (List.mem_reverse.mp hv)
    · exact ih (List.forall_mem_cons.mpr ⟨hitem start v after hv, hdone⟩) hafter

/-- What is known of all that was gathered, and of less if it is known of more, is known at the
start. -/
theorem readMembers_reflects {σ : Type} {member : σ → String → List Char → Parsed σ} {Q : σ → Prop}
    (hback : ∀ g name cs next rest, member g name cs = .ok (next, rest) → Q next → Q g)
    {fuel : Nat} {first : Bool} {g final : σ} {cs rest : List Char}
    (h : readMembers member fuel first g cs = .ok (final, rest)) (hQ : Q final) : Q g := by
  induction fuel generalizing first g cs with
  | zero => cases h
  | succ fuel ih =>
    rcases readMembers_succ_iff.mp h with
      ⟨-, rfl⟩ | ⟨start, name, value, next, after, -, -, hmember, hrest⟩
    · exact hQ
    · exact hback g name value next after hmember (ih hrest)

/-- Readers of members keep step over an object if they do member by member, wherever that is needed
to come to what was gathered in the end. -/
theorem readMembers_simulates_of {σ τ : Type} {member : σ → String → List Char → Parsed σ}
    {member' : τ → String → List Char → Parsed τ} {R : σ → τ → Prop} {Q : σ → Prop}
    (hback : ∀ g name cs next rest, member g name cs = .ok (next, rest) → Q next → Q g)
    (hstep : ∀ g t name cs next rest, R g t → Q next → member g name cs = .ok (next, rest) →
      ∃ next', member' t name cs = .ok (next', rest) ∧ R next next')
    {fuel : Nat} {first : Bool} {g final : σ} {t : τ} {cs rest : List Char} (hR : R g t)
    (h : readMembers member fuel first g cs = .ok (final, rest)) (hQ : Q final) :
    ∃ final', readMembers member' fuel first t cs = .ok (final', rest) ∧ R final final' := by
  induction fuel generalizing first g t cs with
  | zero => cases h
  | succ fuel ih =>
    rcases readMembers_succ_iff.mp h with
      ⟨hspace, rfl⟩ | ⟨start, name, value, next, after, hopens, hname, hmember, hrest⟩
    · exact ⟨t, readMembers_succ_iff.mpr (Or.inl ⟨hspace, rfl⟩), hR⟩
    · have hnextQ := readMembers_reflects hback hrest hQ
      obtain ⟨next', hmember', hnext⟩ := hstep g t name value next after hR hnextQ hmember
      obtain ⟨final', hrest', hfinal⟩ := ih hnext hrest
      exact ⟨final', readMembers_succ_iff.mpr
        (Or.inr ⟨start, name, value, next', after, hopens, hname, hmember', hrest'⟩), hfinal⟩

/-- Readers of members that keep step member by member keep step over an object. -/
theorem readMembers_simulates {σ τ : Type} {member : σ → String → List Char → Parsed σ}
    {member' : τ → String → List Char → Parsed τ} {R : σ → τ → Prop}
    (hstep : ∀ g t name cs next rest, R g t → member g name cs = .ok (next, rest) →
      ∃ next', member' t name cs = .ok (next', rest) ∧ R next next')
    {fuel : Nat} {first : Bool} {g final : σ} {t : τ} {cs rest : List Char} (hR : R g t)
    (h : readMembers member fuel first g cs = .ok (final, rest)) :
    ∃ final', readMembers member' fuel first t cs = .ok (final', rest) ∧ R final final' :=
  readMembers_simulates_of (Q := fun _ => True) (fun _ _ _ _ _ _ _ => trivial)
    (fun g t name cs next rest hg _ => hstep g t name cs next rest hg) hR h trivial

/-- What every member keeps, an object keeps. -/
theorem readMembers_keeps {σ : Type} {member : σ → String → List Char → Parsed σ} {P : σ → Prop}
    (hstep : ∀ g name cs next rest, P g → member g name cs = .ok (next, rest) → P next)
    {fuel : Nat} {first : Bool} {g final : σ} {cs rest : List Char} (hP : P g)
    (h : readMembers member fuel first g cs = .ok (final, rest)) : P final := by
  have hkeeps : ∀ g t name cs next rest, (g = t ∧ P g) → member g name cs = .ok (next, rest) →
      ∃ next', member t name cs = .ok (next', rest) ∧ next = next' ∧ P next := by
    rintro g _ name cs next rest ⟨rfl, hg⟩ hmember
    exact ⟨next, hmember, rfl, hstep g name cs next rest hg hmember⟩
  obtain ⟨final', -, -, hfinal⟩ := readMembers_simulates hkeeps ⟨rfl, hP⟩ h
  exact hfinal

/-! ## Values -/

/-- The integer that a numeral denotes is one that is kept exactly. -/
theorem inRange_of_value {numeral : Numeral} {n : Number} (h : numeral.value = some n) :
    InRange n := by
  unfold Numeral.value at h
  dsimp only at h
  split at h
  · rename_i hinteger
    simp only [Bool.and_eq_true, decide_eq_true_eq] at hinteger
    split at h
    · cases h
      exact ⟨by omega, Int.ofNat_le.mpr hinteger.2⟩
    · split at h
      · obtain ⟨x, -, rfl⟩ := Option.map_eq_some_iff.mp h
        trivial
      · rename_i hnegative
        simp only [Bool.or_eq_true, decide_eq_true_eq, not_or] at hnegative
        cases h
        exact ⟨by omega, by omega⟩
  · obtain ⟨x, -, rfl⟩ := Option.map_eq_some_iff.mp h
    trivial

theorem inRange_of_readUnsigned {negative : Bool} {cs rest : List Char} {n : Number}
    (h : readUnsigned negative cs = .ok (n, rest)) : InRange n := by
  obtain ⟨_, -, h⟩ := bind_eq_ok_iff.mp h
  obtain ⟨_, -, h⟩ := bind_eq_ok_iff.mp h
  obtain ⟨_, -, h⟩ := bind_eq_ok_iff.mp h
  dsimp only at h
  split at h
  · rename_i hvalue
    cases h
    exact inRange_of_value hvalue
  · cases h

/-- A member is added to those gathered before it. -/
theorem readMember_eq_ok_iff {value : List Char → Parsed Json}
    {gathered next : List (String × Json)} {name : String} {cs rest : List Char} :
    readMember value gathered name cs = .ok (next, rest) ↔
      ∃ start v, readColon cs = .ok start ∧ value start = .ok (v, rest) ∧
        next = (name, v) :: gathered := by
  constructor
  · intro h
    obtain ⟨start, hcolon, h⟩ := bind_eq_ok_iff.mp h
    obtain ⟨⟨v, after⟩, hv, h⟩ := bind_eq_ok_iff.mp h
    cases h
    exact ⟨start, v, hcolon, hv, rfl⟩
  · rintro ⟨start, v, hcolon, hv, rfl⟩
    exact bind_eq_ok_iff.mpr ⟨start, hcolon, bind_eq_ok_iff.mpr ⟨_, hv, rfl⟩⟩

theorem within_of_readMember {P : Number → Prop} {depth : Nat} {value : List Char → Parsed Json}
    (hvalue : ∀ cs v rest, value cs = .ok (v, rest) → Within P depth v)
    {gathered next : List (String × Json)} {name : String} {cs rest : List Char}
    (hgathered : ∀ m ∈ gathered, Within P depth m.2)
    (h : readMember value gathered name cs = .ok (next, rest)) :
    ∀ m ∈ next, Within P depth m.2 := by
  obtain ⟨start, v, -, hv, rfl⟩ := readMember_eq_ok_iff.mp h
  exact List.forall_mem_cons.mpr ⟨hvalue start v rest hv, hgathered⟩

/-- **A value that was read** is nested no deeper than allowed, and its integers are in range. -/
theorem within_of_readValue {depth : Nat} {cs rest : List Char} {v : Json}
    (h : readValue depth cs = .ok (v, rest)) : Within InRange depth v := by
  -- over the depth, since an array or an object reads its parts one level below
  induction depth using Nat.strongRecOn generalizing cs v rest with
  | _ depth ih =>
    have hfound := valueFound_of_readValue h
    generalize skipSpace cs = start at hfound
    cases hfound with
    | null hword => exact .null depth
    | true hword => exact .bool depth true
    | false hword => exact .bool depth false
    | text htext => exact .text depth _
    | negative hnumeral => exact .number depth (inRange_of_readUnsigned hnumeral)
    | digits hc hnumeral => exact .number depth (inRange_of_readUnsigned hnumeral)
    | @array depth _ _ _ hitems =>
      exact .array (forall_of_readItems (fun _ _ _ => ih depth (Nat.lt_succ_self depth))
        (fun _ hv => absurd hv List.not_mem_nil) hitems)
    | @object depth _ _ _ hmembers =>
      -- what was gathered so far lies within the lower level, and each member that is read does
      have hwithin := readMembers_keeps
        (P := fun gathered => ∀ m ∈ gathered, Within InRange depth m.2)
        (fun _ _ _ _ _ hgathered hmember => within_of_readMember
          (fun _ _ _ => ih depth (Nat.lt_succ_self depth)) hgathered hmember)
        (fun _ hm => absurd hm List.not_mem_nil) hmembers
      exact .object fun m hm => hwithin m (List.mem_reverse.mp hm)

end RunJournal.Json
