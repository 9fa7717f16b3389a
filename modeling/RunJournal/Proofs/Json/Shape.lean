import RunJournal.Json.Value

/-!
# The shape of JSON values

Values are nested, so induction over them has to reach the items of an array and the values of an
object's members; `Json.induction` does.

Two things about a value decide whether it survives being written and read: how deep it is nested,
and which numbers it holds. `Within P depth` bounds the first and puts the condition `P` on the
second; `doubles` are the numbers for which the condition is not known in advance.

`onlyText?` is what an object says under a name that stands for its kind or its state: one text, and
nothing else.
-/

namespace RunJournal.Json

/-- Induction over a value: a property holds of every value if it passes from the items to the array
and from the members to the object. -/
theorem induction {motive : Json → Prop} (null : motive .null) (bool : ∀ b, motive (.bool b))
    (number : ∀ n, motive (.number n)) (text : ∀ s, motive (.text s))
    (array : ∀ items, (∀ v ∈ items, motive v) → motive (.array items))
    (object : ∀ members, (∀ m ∈ members, motive m.2) → motive (.object members)) (v : Json) :
    motive v := by
  refine Json.rec (motive_1 := motive) (motive_2 := fun items => ∀ v ∈ items, motive v)
    (motive_3 := fun members => ∀ m ∈ members, motive m.2) (motive_4 := fun m => motive m.2)
    null bool number text array object ?_ ?_ ?_ ?_ ?_ v
  · exact fun v hv => absurd hv List.not_mem_nil
  · intro v items hv hitems w hw
    rcases List.mem_cons.mp hw with rfl | hw
    · exact hv
    · exact hitems w hw
  · exact fun m hm => absurd hm List.not_mem_nil
  · intro m members hm hmembers m' hm'
    rcases List.mem_cons.mp hm' with rfl | hm'
    · exact hm
    · exact hmembers m' hm'
  · exact fun name v hv => hv

/-! ## Depth and numbers -/

/-- A value with at most `depth` levels of arrays and objects, of which every number has the
property `P`. -/
inductive Within (P : Number → Prop) : Nat → Json → Prop where
  | null (depth : Nat) : Within P depth .null
  | bool (depth : Nat) (b : Bool) : Within P depth (.bool b)
  | number (depth : Nat) {n : Number} (h : P n) : Within P depth (.number n)
  | text (depth : Nat) (s : String) : Within P depth (.text s)
  | array {depth : Nat} {items : List Json} (h : ∀ v ∈ items, Within P depth v) :
      Within P (depth + 1) (.array items)
  | object {depth : Nat} {members : List (String × Json)}
      (h : ∀ m ∈ members, Within P depth m.2) : Within P (depth + 1) (.object members)

namespace Within

variable {P Q : Number → Prop} {depth depth' : Nat} {v : Json}

theorem mono_depth (h : Within P depth v) (hle : depth ≤ depth') : Within P depth' v := by
  induction h generalizing depth' with
  | null depth => exact .null depth'
  | bool depth b => exact .bool depth' b
  | number depth hn => exact .number depth' hn
  | text depth s => exact .text depth' s
  | array _ ih =>
    obtain ⟨more, rfl⟩ := Nat.exists_eq_add_of_lt hle
    exact .array fun v hv => ih v hv (Nat.le_add_right _ _)
  | object _ ih =>
    obtain ⟨more, rfl⟩ := Nat.exists_eq_add_of_lt hle
    exact .object fun m hm => ih m hm (Nat.le_add_right _ _)

theorem items {items : List Json} (h : Within P (depth + 1) (.array items)) :
    ∀ v ∈ items, Within P depth v := by
  cases h with
  | array h => exact h

theorem members {members : List (String × Json)} (h : Within P (depth + 1) (.object members)) :
    ∀ m ∈ members, Within P depth m.2 := by
  cases h with
  | object h => exact h

end Within

mutual

/-- The doubles in a value. -/
def doubles : Json → List Double
  | .number (.real x) => [x]
  | .array items => doublesItems items
  | .object members => doublesMembers members
  | _ => []

/-- The doubles in items. -/
def doublesItems : List Json → List Double
  | [] => []
  | v :: rest => doubles v ++ doublesItems rest

/-- The doubles in the values of members. -/
def doublesMembers : List (String × Json) → List Double
  | [] => []
  | (_, v) :: rest => doubles v ++ doublesMembers rest

end

theorem doublesItems_eq (items : List Json) : doublesItems items = items.flatMap doubles := by
  induction items with
  | nil => rfl
  | cons v items ih => rw [doublesItems, List.flatMap_cons, ih]

theorem doublesMembers_eq (members : List (String × Json)) :
    doublesMembers members = members.flatMap fun m => doubles m.2 := by
  induction members with
  | nil => rfl
  | cons m members ih => rw [doublesMembers, List.flatMap_cons, ih]

theorem mem_doubles_array {items : List Json} {x : Double} :
    x ∈ doubles (.array items) ↔ ∃ v ∈ items, x ∈ doubles v := by
  rw [doubles, doublesItems_eq, List.mem_flatMap]

theorem mem_doubles_object {members : List (String × Json)} {x : Double} :
    x ∈ doubles (.object members) ↔ ∃ m ∈ members, x ∈ doubles m.2 := by
  rw [doubles, doublesMembers_eq, List.mem_flatMap]

/-- A condition on the doubles of a value can be added to one on its numbers. -/
theorem Within.imp_of_doubles {P Q : Number → Prop} {depth : Nat} {v : Json} (h : Within P depth v)
    (hinteger : ∀ i, P (.integer i) → Q (.integer i)) (hreal : ∀ x ∈ v.doubles, Q (.real x)) :
    Within Q depth v := by
  induction h with
  | null depth => exact .null depth
  | bool depth b => exact .bool depth b
  | @number depth n hn =>
    cases n with
    | integer i => exact .number depth (hinteger i hn)
    | real x => exact .number depth (hreal x List.mem_cons_self)
  | text depth s => exact .text depth s
  | array _ ih =>
    exact .array fun v hv => ih v hv fun x hx => hreal x (mem_doubles_array.mpr ⟨v, hv, hx⟩)
  | object _ ih =>
    exact .object fun m hm => ih m hm fun x hx => hreal x (mem_doubles_object.mpr ⟨m, hm, hx⟩)

/-! ## Members of a name -/

/-- The text in the only member of a name. -/
def onlyText? (name : String) (members : List (String × Json)) : Option String :=
  match members.filter fun m => m.1 == name with
  | [(_, .text s)] => some s
  | _ => none

theorem onlyText?_eq_some_iff {name s : String} {members : List (String × Json)} :
    onlyText? name members = some s ↔
      (members.filter fun m => m.1 == name) = [(name, .text s)] := by
  constructor
  · intro h
    unfold onlyText? at h
    split at h
    · rename_i name' s' hfilter
      cases h
      have hmem : (name', Json.text s) ∈ members.filter fun m => m.1 == name := by
        rw [hfilter]
        exact List.mem_cons_self
      have hname : name' = name := beq_iff_eq.mp (List.mem_filter.mp hmem).2
      rw [hfilter, hname]
    · cases h
  · intro h
    unfold onlyText?
    rw [h]

end RunJournal.Json
