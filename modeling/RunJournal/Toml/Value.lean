/-!
# TOML values

What a TOML document denotes. Of decimals and of dates and times only the spelling is kept. Values
are compared part by part (`Toml.same`), which decides whether they are equal.
-/

namespace RunJournal

/-- A TOML value. -/
inductive Toml where
  | text (value : String)
  | integer (value : Int)
  | decimal (spelling : String)
  | bool (value : Bool)
  | moment (spelling : String)
  | array (items : List Toml)
  | table (members : List (String × Toml))
deriving Repr

namespace Toml

mutual

/-- Whether two values are the same. -/
def same : Toml → Toml → Bool
  | .text a, .text b => a == b
  | .integer a, .integer b => a == b
  | .decimal a, .decimal b => a == b
  | .bool a, .bool b => a == b
  | .moment a, .moment b => a == b
  | .array vs, .array ws => sameItems vs ws
  | .table ms, .table ns => sameMembers ms ns
  | _, _ => false

/-- Whether the items of two arrays are the same, in order. -/
def sameItems : List Toml → List Toml → Bool
  | [], [] => true
  | v :: vs, w :: ws => same v w && sameItems vs ws
  | _, _ => false

/-- Whether the members of two tables are the same, in order. -/
def sameMembers : List (String × Toml) → List (String × Toml) → Bool
  | [], [] => true
  | (a, v) :: ms, (b, w) :: ns => a == b && same v w && sameMembers ms ns
  | _, _ => false

end

mutual

theorem same_iff : ∀ v w : Toml, same v w = true ↔ v = w
  | .text a, w => by cases w <;> simp [same]
  | .integer a, w => by cases w <;> simp [same]
  | .decimal a, w => by cases w <;> simp [same]
  | .bool a, w => by cases w <;> simp [same]
  | .moment a, w => by cases w <;> simp [same]
  | .array vs, w => by
    cases w with
    | array ws => simp [same, sameItems_iff vs ws]
    | _ => simp [same]
  | .table ms, w => by
    cases w with
    | table ns => simp [same, sameMembers_iff ms ns]
    | _ => simp [same]

theorem sameItems_iff : ∀ vs ws : List Toml, sameItems vs ws = true ↔ vs = ws
  | [], ws => by cases ws <;> simp [sameItems]
  | v :: vs, ws => by
    cases ws with
    | nil => simp [sameItems]
    | cons w ws => simp [sameItems, same_iff v w, sameItems_iff vs ws]

theorem sameMembers_iff : ∀ ms ns : List (String × Toml), sameMembers ms ns = true ↔ ms = ns
  | [], ns => by cases ns <;> simp [sameMembers]
  | (a, v) :: ms, ns => by
    cases ns with
    | nil => simp [sameMembers]
    | cons n ns =>
      obtain ⟨b, w⟩ := n
      simp [sameMembers, same_iff v w, sameMembers_iff ms ns, and_assoc]

end

instance : DecidableEq Toml := fun v w => decidable_of_iff _ (same_iff v w)

end Toml

end RunJournal
