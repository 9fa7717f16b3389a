import RunJournal.Number.Double

/-!
# JSON values

A JSON text denotes a `Json` value. An object keeps its members in the order in which they are
written, repeated names included, because two questions about a record depend on them: whether a
known member is repeated, and which of several members of one name counts. `Json.canonical`
forgets both: in a canonical value the members of every object are in increasing order of their
names, and of members with one name the last is kept.
-/

namespace RunJournal

/-- A JSON number: an integer of the range that is kept exactly, or a double. -/
inductive Number where
  | integer (value : Int)
  | real (value : Double)
deriving DecidableEq, Repr

/-- A JSON value. -/
inductive Json where
  | null
  | bool (value : Bool)
  | number (value : Number)
  | text (value : String)
  | array (items : List Json)
  | object (members : List (String × Json))
deriving Repr

namespace Json

/-- The integer `i` as a value. -/
def int (i : Int) : Json := .number (.integer i)

/-- The natural `n` as a value. -/
def nat (n : Nat) : Json := int n

/-- Nothing as `null`, and anything else as what `f` makes of it. -/
def ofOption {α : Type} (f : α → Json) : Option α → Json
  | none => .null
  | some a => f a

/-- A member list in increasing order of names with `name` set to `value`; a member of that name
is replaced. -/
def setMember (name : String) (value : Json) :
    List (String × Json) → List (String × Json)
  | [] => [(name, value)]
  | (n, v) :: rest =>
    if name < n then (name, value) :: (n, v) :: rest
    else if name = n then (name, value) :: rest
    else (n, v) :: setMember name value rest

/-- The members in increasing order of names, the last of each name. -/
def sortMembers (members : List (String × Json)) : List (String × Json) :=
  members.foldl (fun sorted m => setMember m.1 m.2 sorted) []

mutual

/-- The value with the members of all its objects sorted, the last of each name kept. -/
def canonical : Json → Json
  | .array items => .array (canonicalItems items)
  | .object members => .object (sortMembers (canonicalMembers members))
  | v => v

/-- Canonical items. -/
def canonicalItems : List Json → List Json
  | [] => []
  | v :: rest => canonical v :: canonicalItems rest

/-- Members with canonical values, in their order. -/
def canonicalMembers : List (String × Json) → List (String × Json)
  | [] => []
  | (n, v) :: rest => (n, canonical v) :: canonicalMembers rest

end

/-- The member `name` of an object, if it has one. -/
def member? (name : String) : Json → Option Json
  | .object members => members.lookup name
  | _ => none

end Json

end RunJournal
