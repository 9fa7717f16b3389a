import RunJournal.Event.Printer
import RunJournal.Event.Reader
import RunJournal.Proofs.Json.Canonical
import RunJournal.Proofs.Json.Token

/-!
# Records survive being written

Whatever the reader of a record gives is written as a value from which the same reader gives the
same again (`Kept`), and writing adds neither levels beyond a small constant nor integers out of
range.
`Retold` says so of a reader and a writer together, and it is composed like the records are: of a
field that has to be given (`Retold.required`), of a field with a default (`Retold.optional`), of
lists (`Retold.asList`) and of what may be `null` (`Retold.orNull`). At the top stands
`Event.retold`.

It holds although readers are lenient. They take records that are written as arrays, members in any
order, members that they do not know, and fields that are missing; none of that is left in what they
give. Only an attempt keeps members that it does not know. It keeps them sorted, the last of each
name, so that an attempt and what it was read from have the same canonical form
(`Attempt.canonical_toJson`).
-/

namespace RunJournal

open Json

namespace Json

/-- `a` is written as a value from which `a` is read, and which has at most `depth` levels and no
integer out of range. -/
structure Kept {α : Type} (read : Json → Option α) (write : α → Json) (depth : Nat) (a : α) :
    Prop where
  read_write : read (write a) = some a
  within : Within InRange depth (write a)

/-- Whatever `read` gives is kept by `write`, at the depth at which it was found or at `least`. -/
def Retold {α : Type} (read : Json → Option α) (write : α → Json) (least : Nat) : Prop :=
  ∀ ⦃depth v a⦄, least ≤ depth → Within InRange depth v → read v = some a → Kept read write depth a

/-! ## Parts of records -/

theorem kept_text (depth : Nat) (s : String) : Kept asText .text depth s := ⟨rfl, .text depth s⟩

theorem retold_text : Retold asText .text 0 := fun depth _ s _ _ _ => kept_text depth s

/-- A number below a limit is kept when all numbers below it are exact. -/
theorem kept_natBelow {limit n : Nat} (hlimit : limit ≤ maxSignificand) (hn : n < limit)
    (depth : Nat) : Kept (asNatBelow limit) .nat depth n := by
  refine ⟨?_, .number depth ⟨by omega, by omega⟩⟩
  have hrange : (0 ≤ (n : Int) && (n : Int) < limit) = true := by
    simp only [Bool.and_eq_true, decide_eq_true_eq]
    omega
  -- the reader tests the number as an integer
  show (if (0 ≤ (n : Int) && (n : Int) < limit) = true then some (n : Int).toNat else none) = _
  rw [if_pos hrange, Int.toNat_natCast]

theorem retold_natBelow {limit : Nat} (hlimit : limit ≤ maxSignificand) :
    Retold (asNatBelow limit) .nat 0 := by
  intro depth v n _ _ h
  refine kept_natBelow hlimit ?_ depth
  unfold asNatBelow at h
  split at h
  · split at h
    · rename_i hrange
      simp only [Bool.and_eq_true, decide_eq_true_eq] at hrange
      cases h
      omega
    · cases h
  · cases h

/-- Reading gives a list back when it gives each of its items back. -/
theorem mapM_map_eq_some {α : Type} {read : Json → Option α} {write : α → Json} {as : List α}
    (h : ∀ a ∈ as, read (write a) = some a) : (as.map write).mapM read = some as := by
  -- on the list, as the reader goes through the items
  induction as with
  | nil => rfl
  | cons a as ih =>
    obtain ⟨ha, has⟩ := List.forall_mem_cons.mp h
    simp [ha, ih has]

/-- A list that was read has its items in the order of the values. -/
theorem getElem?_of_mapM {α : Type} {read : Json → Option α} {items : List Json} {as : List α}
    (h : items.mapM read = some as) (i : Nat) : as[i]? = (items[i]?).bind read := by
  induction items generalizing as i with
  | nil =>
    cases h
    rfl
  | cons v items ih =>
    simp only [List.mapM_cons, Option.bind_eq_bind, Option.bind_eq_some_iff, Option.pure_def,
      Option.some.injEq] at h
    obtain ⟨a, ha, as, has, rfl⟩ := h
    cases i with
    | zero => exact ha.symm
    | succ i => exact ih has i

/-- What is known of each item is known of the list. -/
theorem map_eq_map_of_mapM {α β : Type} {read : Json → Option α} {f : α → β} {g : Json → β}
    (hitem : ∀ v a, read v = some a → f a = g v) {items : List Json} {as : List α}
    (h : items.mapM read = some as) : as.map f = items.map g := by
  induction items generalizing as with
  | nil =>
    cases h
    rfl
  | cons v items ih =>
    simp only [List.mapM_cons, Option.bind_eq_bind, Option.bind_eq_some_iff, Option.pure_def,
      Option.some.injEq] at h
    obtain ⟨a, ha, as, has, rfl⟩ := h
    rw [List.map_cons, List.map_cons, hitem v a ha, ih has]

/-- Every item of a list that was read was read from one of the values. -/
theorem exists_of_mapM {α : Type} {read : Json → Option α} {items : List Json} {as : List α}
    (h : items.mapM read = some as) : ∀ a ∈ as, ∃ v ∈ items, read v = some a := by
  intro a ha
  obtain ⟨i, hi⟩ := List.getElem?_of_mem ha
  rw [getElem?_of_mapM h] at hi
  obtain ⟨v, hv, hread⟩ := Option.bind_eq_some_iff.mp hi
  exact ⟨v, List.mem_of_getElem? hv, hread⟩

/-- A list is kept when each of its items is. -/
theorem kept_asList {α : Type} {read : Json → Option α} {write : α → Json} {depth : Nat}
    {as : List α} (h : ∀ a ∈ as, Kept read write depth a) :
    Kept (asList read) (fun as => .array (as.map write)) (depth + 1) as := by
  refine ⟨mapM_map_eq_some fun a ha => (h a ha).read_write, .array fun v hv => ?_⟩
  obtain ⟨a, ha, rfl⟩ := List.mem_map.mp hv
  exact (h a ha).within

theorem kept_none {α : Type} {read : Json → Option α} {write : α → Json} (depth : Nat) :
    Kept (orNull read) (ofOption write) depth none := ⟨rfl, .null depth⟩

theorem kept_nil {α : Type} {read : Json → Option α} {write : α → Json} {depth : Nat}
    (hdepth : 1 ≤ depth) : Kept (asList read) (fun as => .array (as.map write)) depth [] := by
  obtain ⟨depth, rfl⟩ := Nat.exists_eq_add_of_le' hdepth
  exact kept_asList fun a ha => absurd ha List.not_mem_nil

/-- Lists are retold when their items are, one level deeper. -/
theorem Retold.asList {α : Type} {read : Json → Option α} {write : α → Json} {least : Nat}
    (h : Retold read write least) :
    Retold (asList read) (fun as => .array (as.map write)) (least + 1) := by
  intro depth v as hdepth hv hread
  obtain ⟨depth, rfl⟩ := Nat.exists_eq_add_of_le' hdepth
  cases v with
  | array items =>
    refine kept_asList fun a ha => ?_
    obtain ⟨w, hw, hread⟩ := exists_of_mapM hread a ha
    exact h (Nat.le_add_left _ _) (hv.items w hw) hread
  | _ => cases hread

/-- What may be `null` is kept when it is not written as `null` itself. -/
theorem Retold.orNull {α : Type} {read : Json → Option α} {write : α → Json} {least : Nat}
    (h : Retold read write least)
    (hnull : ∀ {v a}, v ≠ .null → read v = some a → write a ≠ .null) :
    Retold (orNull read) (ofOption write) least := by
  intro depth v a? hdepth hv hread
  -- `null` is read as nothing whatever `read` makes of it; any other value is `read`'s to read
  by_cases hv' : v = .null
  · subst hv'
    cases hread
    exact ⟨rfl, .null depth⟩
  · have hsome (w : Json) (hw : w ≠ .null) : Json.orNull read w = (read w).map some := by
      cases w with
      | null => exact absurd rfl hw
      | _ => rfl
    rw [hsome v hv'] at hread
    obtain ⟨a, ha, rfl⟩ := Option.map_eq_some_iff.mp hread
    have hkept := h hdepth hv ha
    refine ⟨?_, hkept.within⟩
    show Json.orNull read (write a) = _
    rw [hsome _ (hnull hv' ha), hkept.read_write]
    rfl

/-! ## Fields -/

section Fields

variable {names : List String} {v w : Json} {fields : List (String × Json)} {name : String}

/-- A field lies one level below the record. -/
theorem within_of_fields? {P : Number → Prop} {depth : Nat}
    (hfields : fields? names v = some fields) (hv : Within P (depth + 1) v)
    (hw : fields.lookup name = some w) : Within P depth w := by
  have hmem := mem_of_lookup hw
  -- the fields of an object are some of its members, those of an array its items in order
  cases v with
  | object members =>
    simp only [fields?] at hfields
    split at hfields
    · cases hfields
      exact hv.members _ (List.mem_of_mem_filter hmem)
    · cases hfields
  | array items =>
    simp only [fields?] at hfields
    split at hfields
    · cases hfields
      exact hv.items _ (List.of_mem_zip hmem).2
    · cases hfields
  | _ => cases hfields

/-- The fields of an object are its members. -/
theorem lookup_of_fields? {members : List (String × Json)}
    (hfields : fields? names (.object members) = some fields) (hname : name ∈ names) :
    fields.lookup name = members.lookup name := by
  simp only [fields?] at hfields
  split at hfields
  · cases hfields
    exact lookup_filter (p := fun m => names.contains m.1)
      (fun _ => List.contains_iff_mem.mpr hname) members
  · cases hfields

/-- A record that is written with all of its fields is read with the same. -/
theorem fields?_written (hnames : fields.map Prod.fst = names) (hnodup : names.Nodup) :
    fields? names (.object fields) = some fields := by
  have hknown : (fields.filter fun m => names.contains m.1) = fields :=
    List.filter_eq_self.mpr fun m hm => by
      rw [List.contains_iff_mem, ← hnames]
      exact List.mem_map_of_mem hm
  simp only [fields?, hknown, hnames, if_pos hnodup]

variable {α : Type} {read : Json → Option α} {a default : α}

/-- What a field gives that has to be there. -/
theorem required_eq_some_iff :
    required fields name read = some a ↔ ∃ w, fields.lookup name = some w ∧ read w = some a :=
  Option.bind_eq_some_iff

/-- What a field gives that may be missing. -/
theorem optional_eq_some_iff :
    optional fields name read default = some a ↔
      (fields.lookup name = none ∧ default = a) ∨
      ∃ w, fields.lookup name = some w ∧ read w = some a := by
  unfold optional
  cases fields.lookup name with
  | none => simp
  | some w => simp

variable {write : α → Json} {least depth : Nat}

/-- What was read from a field that has to be given is kept at the level of the field. -/
theorem Retold.required (h : Retold read write least) (hleast : least ≤ depth)
    (hfields : fields? names v = some fields) (hv : Within InRange (depth + 1) v)
    (hread : required fields name read = some a) : Kept read write depth a := by
  obtain ⟨w, hw, hread⟩ := required_eq_some_iff.mp hread
  exact h hleast (within_of_fields? hfields hv hw) hread

/-- What was read from a field with a default is kept, if the default is. -/
theorem Retold.optional (h : Retold read write least) (hleast : least ≤ depth)
    (hdefault : Kept read write depth default) (hfields : fields? names v = some fields)
    (hv : Within InRange (depth + 1) v) (hread : optional fields name read default = some a) :
    Kept read write depth a := by
  rcases optional_eq_some_iff.mp hread with ⟨-, rfl⟩ | ⟨w, hw, hread⟩
  · exact hdefault
  · exact h hleast (within_of_fields? hfields hv hw) hread

theorem Kept.required (h : Kept read write depth a)
    (hwritten : fields.lookup name = some (write a)) : required fields name read = some a :=
  required_eq_some_iff.mpr ⟨_, hwritten, h.read_write⟩

theorem Kept.optional (h : Kept read write depth a)
    (hwritten : fields.lookup name = some (write a)) : optional fields name read default = some a :=
  optional_eq_some_iff.mpr (Or.inr ⟨_, hwritten, h.read_write⟩)

end Fields

end Json

/-! ## Records -/

theorem countLimit_le : countLimit ≤ maxSignificand := by
  unfold countLimit maxSignificand
  omega

theorem retold_count : Retold (asNatBelow countLimit) .nat 0 := retold_natBelow countLimit_le

theorem kept_zero (depth : Nat) : Kept (asNatBelow countLimit) .nat depth 0 :=
  kept_natBelow countLimit_le (by unfold countLimit; omega) depth

/-- The fields of a screenshot. -/
theorem Screenshot.ofJson?_eq_some_iff {v : Json} {s : Screenshot} :
    Screenshot.ofJson? v = some s ↔ ∃ fields,
      fields? ["path", "testId", "testAttemptIndex"] v = some fields ∧
      required fields "path" asText = some s.path ∧
      required fields "testId" asText = some s.testId ∧
      required fields "testAttemptIndex" (asNatBelow countLimit) = some s.attemptIndex := by
  simp only [Screenshot.ofJson?, Option.bind_eq_bind, Option.bind_eq_some_iff]
  constructor
  · rintro ⟨fields, hfields, path, hpath, testId, htestId, attemptIndex, hindex, ⟨⟩⟩
    exact ⟨fields, hfields, hpath, htestId, hindex⟩
  · rintro ⟨fields, hfields, hpath, htestId, hindex⟩
    exact ⟨fields, hfields, _, hpath, _, htestId, _, hindex, rfl⟩

theorem Screenshot.retold : Retold Screenshot.ofJson? Screenshot.toJson 1 := by
  intro depth v s hdepth hv h
  obtain ⟨depth, rfl⟩ := Nat.exists_eq_add_of_le' hdepth
  obtain ⟨fields, hfields, hpath, htestId, hindex⟩ := Screenshot.ofJson?_eq_some_iff.mp h
  have hpath := retold_text.required (Nat.zero_le _) hfields hv hpath
  have htestId := retold_text.required (Nat.zero_le _) hfields hv htestId
  have hindex := retold_count.required (Nat.zero_le _) hfields hv hindex
  refine ⟨Screenshot.ofJson?_eq_some_iff.mpr ⟨_, fields?_written rfl (by decide),
    hpath.required rfl, htestId.required rfl, hindex.required rfl⟩, .object ?_⟩
  simp [hpath.within, htestId.within, hindex.within]

/-- The fields of the counts, each of which may be missing. -/
theorem Stats.ofJson?_eq_some_iff {v : Json} {s : Stats} :
    Stats.ofJson? v = some s ↔ ∃ fields,
      fields? ["tests", "passes", "failures", "pending", "skipped"] v = some fields ∧
      optional fields "tests" (asNatBelow countLimit) 0 = some s.tests ∧
      optional fields "passes" (asNatBelow countLimit) 0 = some s.passes ∧
      optional fields "failures" (asNatBelow countLimit) 0 = some s.failures ∧
      optional fields "pending" (asNatBelow countLimit) 0 = some s.pending ∧
      optional fields "skipped" (asNatBelow countLimit) 0 = some s.skipped := by
  simp only [Stats.ofJson?, Option.bind_eq_bind, Option.bind_eq_some_iff]
  constructor
  · rintro ⟨fields, hfields, _, htests, _, hpasses, _, hfailures, _, hpending, _, hskipped, ⟨⟩⟩
    exact ⟨fields, hfields, htests, hpasses, hfailures, hpending, hskipped⟩
  · rintro ⟨fields, hfields, htests, hpasses, hfailures, hpending, hskipped⟩
    exact ⟨fields, hfields, _, htests, _, hpasses, _, hfailures, _, hpending, _, hskipped, rfl⟩

theorem Stats.retold : Retold Stats.ofJson? Stats.toJson 1 := by
  intro depth v s hdepth hv h
  obtain ⟨depth, rfl⟩ := Nat.exists_eq_add_of_le' hdepth
  obtain ⟨fields, hfields, htests, hpasses, hfailures, hpending, hskipped⟩ :=
    Stats.ofJson?_eq_some_iff.mp h
  have hcount {name : String} {n : Nat}
      (h : optional fields name (asNatBelow countLimit) 0 = some n) :
      Kept (asNatBelow countLimit) .nat depth n :=
    retold_count.optional (Nat.zero_le _) (kept_zero depth) hfields hv h
  refine ⟨Stats.ofJson?_eq_some_iff.mpr ⟨_, fields?_written rfl (by decide),
    (hcount htests).optional rfl, (hcount hpasses).optional rfl, (hcount hfailures).optional rfl,
    (hcount hpending).optional rfl, (hcount hskipped).optional rfl⟩, .object ?_⟩
  simp [(hcount htests).within, (hcount hpasses).within, (hcount hfailures).within,
    (hcount hpending).within, (hcount hskipped).within]

/-- An attempt keeps the members that it does not know, in canonical form. -/
theorem Attempt.ofJson?_object (members : List (String × Json)) :
    Attempt.ofJson? (.object members) = (onlyText? "state" members).map fun state =>
      ⟨state, sortMembers (canonicalMembers (members.filter fun m => m.1 != "state"))⟩ := by
  rw [Attempt.ofJson?, onlyText?]
  generalize (members.filter fun m => m.1 == "state") = found
  match found with
  | [] => rfl
  | [(_, v)] => cases v <;> rfl
  | (_, v) :: _ :: _ => cases v <;> rfl

/-- An attempt has its state once, as a text, and all other members as they are. -/
theorem Attempt.ofJson?_eq_some_iff {v : Json} {a : Attempt} :
    Attempt.ofJson? v = some a ↔ ∃ members, v = .object members ∧
      (members.filter fun m => m.1 == "state") = [("state", .text a.state)] ∧
      a.extra = sortMembers (canonicalMembers (members.filter fun m => m.1 != "state")) := by
  constructor
  · intro h
    cases v with
    | object members =>
      rw [Attempt.ofJson?_object] at h
      obtain ⟨state, hstate, rfl⟩ := Option.map_eq_some_iff.mp h
      exact ⟨members, rfl, onlyText?_eq_some_iff.mp hstate, rfl⟩
    | _ => cases h
  · rintro ⟨members, rfl, hstate, hextra⟩
    rw [Attempt.ofJson?_object, onlyText?_eq_some_iff.mpr hstate, ← hextra]
    rfl

namespace Attempt

variable {members : List (String × Json)} {a : Attempt}

/-- No member that an attempt keeps is another state. -/
theorem ne_state_of_mem_extra
    (h : a.extra = sortMembers (canonicalMembers (members.filter fun m => m.1 != "state"))) :
    ∀ m ∈ a.extra, m.1 ≠ "state" := by
  intro m hm
  rw [h] at hm
  have hmem := mem_of_mem_sortMembers hm
  rw [canonicalMembers_eq] at hmem
  obtain ⟨m', hm', rfl⟩ := List.mem_map.mp hmem
  exact bne_iff_ne.mp (List.mem_filter.mp hm').2

/-- The members that an attempt keeps are sorted and canonical. -/
theorem canonicalMembers_extra
    (h : a.extra = sortMembers (canonicalMembers (members.filter fun m => m.1 != "state"))) :
    canonicalMembers a.extra = a.extra := by
  rw [h, canonicalMembers_sortMembers, canonicalMembers_canonicalMembers]

theorem sortMembers_extra
    (h : a.extra = sortMembers (canonicalMembers (members.filter fun m => m.1 != "state"))) :
    sortMembers a.extra = a.extra := by
  rw [h, sortMembers_of_sorted (sorted_sortMembers _)]

/-- Attempts are retold, with the members that they do not know. -/
theorem retold : Retold Attempt.ofJson? Attempt.toJson 1 := by
  intro depth v a hdepth hv h
  obtain ⟨depth, rfl⟩ := Nat.exists_eq_add_of_le' hdepth
  obtain ⟨members, rfl, -, hextra⟩ := Attempt.ofJson?_eq_some_iff.mp h
  have hother := ne_state_of_mem_extra hextra
  refine ⟨Attempt.ofJson?_eq_some_iff.mpr ⟨_, rfl, ?_, ?_⟩, .object ?_⟩
  -- the state is written once, and none of the other members is another state
  · have hnone : (a.extra.filter fun m => m.1 == "state") = [] :=
      List.filter_eq_nil_iff.mpr fun m hm => by simp [hother m hm]
    rw [List.filter_cons_of_pos (by rfl), hnone]
  · have hall : (a.extra.filter fun m => m.1 != "state") = a.extra :=
      List.filter_eq_self.mpr fun m hm => bne_iff_ne.mpr (hother m hm)
    rw [List.filter_cons_of_neg Bool.false_ne_true, hall, canonicalMembers_extra hextra,
      sortMembers_extra hextra]
  -- all other members come from the value that was read, which has no more levels
  · refine List.forall_mem_cons.mpr ⟨.text depth a.state, fun m hm => ?_⟩
    rw [hextra] at hm
    have hmem := mem_of_mem_sortMembers hm
    rw [canonicalMembers_eq] at hmem
    obtain ⟨m', hm', rfl⟩ := List.mem_map.mp hmem
    exact (hv.members m' (List.mem_of_mem_filter hm')).canonical

/-- **An attempt is written as what it was read from**, up to the order of members and to members
that are repeated. -/
theorem canonical_toJson {v : Json} (h : Attempt.ofJson? v = some a) :
    a.toJson.canonical = v.canonical := by
  obtain ⟨members, rfl, hstate, hextra⟩ := Attempt.ofJson?_eq_some_iff.mp h
  -- to drop members and to bring them into canonical form can be done in either order
  have hpick (p : String → Bool) :
      (canonicalMembers members).filter (fun m => p m.1) =
        canonicalMembers (members.filter fun m => p m.1) := by
    rw [canonicalMembers_eq, canonicalMembers_eq, List.filter_map]
    rfl
  show Json.object (sortMembers (("state", .text a.state) :: canonicalMembers a.extra)) =
    .object (sortMembers (canonicalMembers members))
  rw [canonicalMembers_extra hextra]
  refine congrArg Json.object (sortMembers_congr fun key => ?_)
  rw [List.reverse_cons, List.lookup_append]
  by_cases hkey : key = "state"
  · -- the attempt has the one state, which is the one that was given
    subst hkey
    have hnone : a.extra.reverse.lookup "state" = none :=
      List.lookup_eq_none_iff.mpr fun m hm =>
        bne_iff_ne.mpr (ne_state_of_mem_extra hextra m (List.mem_reverse.mp hm)).symm
    rw [hnone, Option.none_or, ← lookup_filter (p := fun m => m.1 == "state") (fun _ => rfl)
      (canonicalMembers members).reverse, List.filter_reverse, hpick (· == "state"), hstate]
    rfl
  -- any other member is looked up past the state, on both sides
  · have hnone : List.lookup key [("state", Json.text a.state)] = none := by
      rw [lookup_cons, if_neg hkey, List.lookup_nil]
    rw [hnone, Option.or_none, hextra, (sorted_sortMembers _).lookup_reverse, lookup_sortMembers,
      ← hpick (· != "state"), ← List.filter_reverse,
      lookup_filter (p := fun m => m.1 != "state") fun _ => bne_iff_ne.mpr hkey]

end Attempt

/-- The fields of a test; its id and its attempts may be missing. -/
theorem TestResult.ofJson?_eq_some_iff {v : Json} {t : TestResult} :
    TestResult.ofJson? v = some t ↔ ∃ fields,
      fields? ["testId", "title", "state", "attempts"] v = some fields ∧
      optional fields "testId" asText "" = some t.testId ∧
      required fields "title" (asList asText) = some t.title ∧
      required fields "state" asText = some t.state ∧
      optional fields "attempts" (asList Attempt.ofJson?) [] = some t.attempts := by
  simp only [TestResult.ofJson?, Option.bind_eq_bind, Option.bind_eq_some_iff]
  constructor
  · rintro ⟨fields, hfields, _, htestId, _, htitle, _, hstate, _, hattempts, ⟨⟩⟩
    exact ⟨fields, hfields, htestId, htitle, hstate, hattempts⟩
  · rintro ⟨fields, hfields, htestId, htitle, hstate, hattempts⟩
    exact ⟨fields, hfields, _, htestId, _, htitle, _, hstate, _, hattempts, rfl⟩

theorem TestResult.retold : Retold TestResult.ofJson? TestResult.toJson 3 := by
  intro depth v t hdepth hv h
  -- one level for the test, one for its list of attempts and one for an attempt
  obtain ⟨depth, rfl⟩ := Nat.exists_eq_add_of_le' (Nat.le_trans (by decide : 1 ≤ 3) hdepth)
  have hdepth : 2 ≤ depth := Nat.le_of_succ_le_succ hdepth
  have hone : 1 ≤ depth := Nat.le_trans (by decide) hdepth
  obtain ⟨fields, hfields, htestId, htitle, hstate, hattempts⟩ :=
    TestResult.ofJson?_eq_some_iff.mp h
  have htestId := retold_text.optional (Nat.zero_le _) (kept_text depth "") hfields hv htestId
  have htitle := retold_text.asList.required hone hfields hv htitle
  have hstate := retold_text.required (Nat.zero_le _) hfields hv hstate
  have hattempts := Attempt.retold.asList.optional hdepth (kept_nil hone) hfields hv hattempts
  refine ⟨TestResult.ofJson?_eq_some_iff.mpr ⟨_, fields?_written rfl (by decide),
    htestId.optional rfl, htitle.required rfl, hstate.required rfl, hattempts.optional rfl⟩,
    .object ?_⟩
  simp [htestId.within, htitle.within, hstate.within, hattempts.within]

/-- The fields of the results of a spec, of which only the counts have to be there. -/
theorem SpecResults.ofJson?_eq_some_iff {v : Json} {r : SpecResults} :
    SpecResults.ofJson? v = some r ↔ ∃ fields,
      fields? ["stats", "tests", "screenshots", "video"] v = some fields ∧
      required fields "stats" Stats.ofJson? = some r.stats ∧
      optional fields "tests" (asList TestResult.ofJson?) [] = some r.tests ∧
      optional fields "screenshots" (asList Screenshot.ofJson?) [] = some r.screenshots ∧
      optional fields "video" (orNull asText) none = some r.video := by
  simp only [SpecResults.ofJson?, Option.bind_eq_bind, Option.bind_eq_some_iff]
  constructor
  · rintro ⟨fields, hfields, _, hstats, _, htests, _, hscreenshots, _, hvideo, ⟨⟩⟩
    exact ⟨fields, hfields, hstats, htests, hscreenshots, hvideo⟩
  · rintro ⟨fields, hfields, hstats, htests, hscreenshots, hvideo⟩
    exact ⟨fields, hfields, _, hstats, _, htests, _, hscreenshots, _, hvideo, rfl⟩

theorem retold_path : Retold (orNull asText) (ofOption .text) 0 :=
  retold_text.orNull fun _ _ h => nomatch h

/-- The results of a spec are retold. -/
theorem SpecResults.retold : Retold SpecResults.ofJson? SpecResults.toJson 5 := by
  intro depth v r hdepth hv h
  -- two levels more than a test: the results and their list of tests
  obtain ⟨depth, rfl⟩ := Nat.exists_eq_add_of_le' (Nat.le_trans (by decide : 1 ≤ 5) hdepth)
  have hdepth : 4 ≤ depth := Nat.le_of_succ_le_succ hdepth
  have hone : 1 ≤ depth := Nat.le_trans (by decide) hdepth
  have htwo : 2 ≤ depth := Nat.le_trans (by decide) hdepth
  obtain ⟨fields, hfields, hstats, htests, hscreenshots, hvideo⟩ :=
    SpecResults.ofJson?_eq_some_iff.mp h
  have hstats := Stats.retold.required hone hfields hv hstats
  have htests := TestResult.retold.asList.optional hdepth (kept_nil hone) hfields hv htests
  have hscreenshots :=
    Screenshot.retold.asList.optional htwo (kept_nil hone) hfields hv hscreenshots
  have hvideo := retold_path.optional (Nat.zero_le _) (kept_none depth) hfields hv hvideo
  refine ⟨SpecResults.ofJson?_eq_some_iff.mpr ⟨_, fields?_written rfl (by decide),
    hstats.required rfl, htests.optional rfl, hscreenshots.optional rfl, hvideo.optional rfl⟩,
    .object ?_⟩
  simp [hstats.within, htests.within, hscreenshots.within, hvideo.within]

/-- Records with one field, which has to be given. -/
theorem retold_single {α : Type} {read : Json → Option α} {write : α → Json} {least : Nat}
    (h : Retold read write least) (name : String) :
    Retold (fun v => (fields? [name] v).bind fun fields => required fields name read)
      (fun a => .object [(name, write a)]) (least + 1) := by
  intro depth v a hdepth hv hread
  obtain ⟨depth, rfl⟩ := Nat.exists_eq_add_of_le' (Nat.le_trans (Nat.le_add_left 1 least) hdepth)
  obtain ⟨fields, hfields, hread⟩ := Option.bind_eq_some_iff.mp hread
  have hkept := h.required (Nat.le_of_succ_le_succ hdepth) hfields hv hread
  refine ⟨Option.bind_eq_some_iff.mpr ⟨_, fields?_written rfl (List.pairwise_singleton _ name),
    hkept.required ?_⟩, .object ?_⟩
  · rw [lookup_cons, if_pos rfl]
  · simp [hkept.within]

theorem retold_spec : Retold specOfJson? specToJson 1 := retold_single retold_text "relative"

theorem retold_browser : Retold browserOfJson? (fun name => .object [("name", .text name)]) 1 :=
  retold_single retold_text "name"

theorem retold_run : Retold runOfJson? runToJson 2 := retold_single retold_browser "browser"

theorem canonical_ne_null {v : Json} (h : v ≠ .null) : v.canonical ≠ .null := by
  cases v with
  | null => exact absurd rfl h
  | _ => exact fun hc => nomatch hc

theorem retold_canonical : Retold (fun v => some v.canonical) id 0 := by
  intro depth v w _ hv h
  cases h
  exact ⟨congrArg some (canonical_canonical v), hv.canonical⟩

/-- The details of the end of a run are retold, be they missing, `null` or a value. -/
theorem retold_details :
    Retold (orNull fun v => some v.canonical) (fun details => details.getD .null) 0 := by
  intro depth v details hdepth hv h
  have hkept := retold_canonical.orNull (fun hv h => by
    cases h
    exact canonical_ne_null hv) hdepth hv h
  cases details with
  | none => exact ⟨hkept.read_write, hkept.within⟩
  | some details => exact ⟨hkept.read_write, hkept.within⟩

/-! ## Events -/

/-- The names of the fields of an event. -/
def EventKind.fieldNames : EventKind → List String
  | .beforeRun => ["details"]
  | .beforeSpec => ["spec"]
  | .afterSpec => ["spec", "results"]
  | .afterRun => ["details"]

/-- No event has two fields of one name. -/
theorem EventKind.nodup_fieldNames (kind : EventKind) : kind.fieldNames.Nodup := by
  cases kind with
  | beforeRun => decide
  | beforeSpec => decide
  | afterSpec => decide
  | afterRun => decide

/-- Whether an event is read from fields. -/
def Event.ReadFrom (fields : List (String × Json)) : Event → Prop
  | .beforeRun browser => required fields "details" runOfJson? = some browser
  | .beforeSpec spec => required fields "spec" specOfJson? = some spec
  | .afterSpec spec results =>
    required fields "spec" specOfJson? = some spec ∧
      required fields "results" SpecResults.ofJson? = some results
  | .afterRun details =>
    optional fields "details" (orNull fun v => some v.canonical) none = some details

/-- An event of a kind is read from the fields of the kind. -/
theorem Event.ofFields?_eq_some_iff {kind : EventKind} {v : Json} {e : Event} :
    Event.ofFields? kind v = some e ↔ e.kind = kind ∧
      ∃ fields, fields? kind.fieldNames v = some fields ∧ e.ReadFrom fields := by
  constructor
  · intro h
    -- the kind is given and says which fields to take apart
    cases kind with
    | beforeRun =>
      obtain ⟨fields, hfields, h⟩ := Option.bind_eq_some_iff.mp h
      obtain ⟨_, hbrowser, ⟨⟩⟩ := Option.bind_eq_some_iff.mp h
      exact ⟨rfl, fields, hfields, hbrowser⟩
    | beforeSpec =>
      obtain ⟨fields, hfields, h⟩ := Option.bind_eq_some_iff.mp h
      obtain ⟨_, hspec, ⟨⟩⟩ := Option.bind_eq_some_iff.mp h
      exact ⟨rfl, fields, hfields, hspec⟩
    | afterSpec =>
      obtain ⟨fields, hfields, h⟩ := Option.bind_eq_some_iff.mp h
      obtain ⟨_, hspec, h⟩ := Option.bind_eq_some_iff.mp h
      obtain ⟨_, hresults, ⟨⟩⟩ := Option.bind_eq_some_iff.mp h
      exact ⟨rfl, fields, hfields, hspec, hresults⟩
    | afterRun =>
      obtain ⟨fields, hfields, h⟩ := Option.bind_eq_some_iff.mp h
      obtain ⟨_, hdetails, ⟨⟩⟩ := Option.bind_eq_some_iff.mp h
      exact ⟨rfl, fields, hfields, hdetails⟩
  · rintro ⟨rfl, fields, hfields, hread⟩
    -- the event is given, and its kind with it
    cases e with
    | beforeRun browser =>
      refine Option.bind_eq_some_iff.mpr ⟨fields, hfields, ?_⟩
      exact Option.bind_eq_some_iff.mpr ⟨_, hread, rfl⟩
    | beforeSpec spec =>
      refine Option.bind_eq_some_iff.mpr ⟨fields, hfields, ?_⟩
      exact Option.bind_eq_some_iff.mpr ⟨_, hread, rfl⟩
    | afterSpec spec results =>
      refine Option.bind_eq_some_iff.mpr ⟨fields, hfields, ?_⟩
      refine Option.bind_eq_some_iff.mpr ⟨_, hread.1, ?_⟩
      exact Option.bind_eq_some_iff.mpr ⟨_, hread.2, rfl⟩
    | afterRun details =>
      refine Option.bind_eq_some_iff.mpr ⟨fields, hfields, ?_⟩
      exact Option.bind_eq_some_iff.mpr ⟨_, hread, rfl⟩

/-- An event is written with all of its fields. -/
theorem Event.fields?_fields (e : Event) :
    fields? e.kind.fieldNames (.object e.fields) = some e.fields := by
  refine fields?_written ?_ (EventKind.nodup_fieldNames e.kind)
  cases e with
  | beforeRun browser => rfl
  | beforeSpec spec => rfl
  | afterSpec spec results => rfl
  | afterRun details => rfl

/-- **Events are retold**, within the depth that any of them needs. -/
theorem Event.retold (kind : EventKind) :
    Retold (Event.ofFields? kind) (fun e => .object e.fields) 6 := by
  intro depth v e hdepth hv h
  obtain ⟨depth, rfl⟩ := Nat.exists_eq_add_of_le' (Nat.le_trans (by decide : 1 ≤ 6) hdepth)
  have hdepth : 5 ≤ depth := Nat.le_of_succ_le_succ hdepth
  obtain ⟨rfl, fields, hfields, hread⟩ := Event.ofFields?_eq_some_iff.mp h
  -- each kind by the records that its fields hold
  cases e with
  | beforeRun browser =>
    have hbrowser := retold_run.required (Nat.le_trans (by decide) hdepth) hfields hv hread
    refine ⟨Event.ofFields?_eq_some_iff.mpr ⟨rfl, _, Event.fields?_fields _,
      hbrowser.required rfl⟩, .object ?_⟩
    simp [Event.fields, hbrowser.within]
  | beforeSpec spec =>
    have hspec := retold_spec.required (Nat.le_trans (by decide) hdepth) hfields hv hread
    refine ⟨Event.ofFields?_eq_some_iff.mpr ⟨rfl, _, Event.fields?_fields _,
      hspec.required rfl⟩, .object ?_⟩
    simp [Event.fields, hspec.within]
  | afterSpec spec results =>
    have hspec := retold_spec.required (Nat.le_trans (by decide) hdepth) hfields hv hread.1
    have hresults := SpecResults.retold.required hdepth hfields hv hread.2
    refine ⟨Event.ofFields?_eq_some_iff.mpr ⟨rfl, _, Event.fields?_fields _,
      hspec.required rfl, hresults.required rfl⟩, .object ?_⟩
    simp [Event.fields, hspec.within, hresults.within]
  | afterRun details =>
    have hdetails := retold_details.optional (Nat.zero_le _) ⟨rfl, .null depth⟩ hfields hv hread
    refine ⟨Event.ofFields?_eq_some_iff.mpr ⟨rfl, _, Event.fields?_fields _,
      hdetails.optional rfl⟩, .object ?_⟩
    simp [Event.fields, hdetails.within]

end RunJournal
