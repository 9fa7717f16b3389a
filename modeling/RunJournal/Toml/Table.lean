import RunJournal.Toml.Value

/-!
# Building tables

The tables of a document come about in several ways, and what may be added to a table later
depends on how it came about. A table with a **header** of its own may not get a second header, and
no dotted key may reach into it; a table **implied** by the header of a table inside it may still
get a header; a table made by a **dotted key** may get no header, and only dotted keys reach it. In
an array of tables only the last table can be reached.

`Members.put` adds a value, `Members.startTable` and `Members.startElement` make the table of a
header; each answers with nothing where the document contradicts itself. Inline tables are built by
`put` alone and are closed when they end, like every other value.
-/

namespace RunJournal.Toml

/-- How a table came about. -/
inductive Origin where
  | header
  | implied
  | dotted
deriving DecidableEq, Repr

/-- A node of a document under construction. -/
inductive Node where
  | value (v : Toml)
  | table (origin : Origin) (members : List (String × Node))
  /-- An array of tables: the last one, and those before it, last first. -/
  | tables (last : List (String × Node)) (earlier : List (List (String × Node)))

/-- The nodes of a table by name. -/
abbrev Members := List (String × Node)

namespace Members

/-- Adds or replaces the node `name`. -/
def set (members : Members) (name : String) (node : Node) : Members :=
  match members with
  | [] => [(name, node)]
  | (n, old) :: rest => if n = name then (n, node) :: rest else (n, old) :: set rest name node

/-- Adds `value` under the dotted key that consists of `path` and `key`. `mayTake` says whether
the table may take a key itself, that is, whether it was reached by dotted keys only. -/
def putFrom (key : String) (value : Toml) :
    (path : List String) → (mayTake : Bool) → Members → Option Members
  | [], mayTake, members =>
    if mayTake && (members.lookup key).isNone then some (members.set key (.value value)) else none
  | name :: path, _, members =>
    match members.lookup name with
    | none => (putFrom key value path true []).map fun inner =>
        members.set name (.table .dotted inner)
    | some (.value _) => none
    | some (.table .header _) => none
    | some (.table origin inner) => (putFrom key value path (origin == .dotted) inner).map fun inner =>
        members.set name (.table origin inner)
    | some (.tables last earlier) => (putFrom key value path false last).map fun last =>
        members.set name (.tables last earlier)

/-- Adds `value` under the dotted key that consists of `path` and `key`. -/
def put (path : List String) (key : String) (value : Toml) (members : Members) : Option Members :=
  putFrom key value path true members

/-- Changes the table that `path` leads to by `f`; tables on the way that do not exist are
implied. -/
def change (f : Members → Option Members) : (path : List String) → Members → Option Members
  | [], members => f members
  | name :: path, members =>
    match members.lookup name with
    | none => (change f path []).map fun inner => members.set name (.table .implied inner)
    | some (.value _) => none
    | some (.table origin inner) => (change f path inner).map fun inner =>
        members.set name (.table origin inner)
    | some (.tables last earlier) => (change f path last).map fun last =>
        members.set name (.tables last earlier)

/-- Makes the table of a header. -/
def startTable (name : String) (members : Members) : Option Members :=
  match members.lookup name with
  | none => some (members.set name (.table .header []))
  | some (.table .implied inner) => some (members.set name (.table .header inner))
  | some _ => none

/-- Makes a new last table of an array of tables. -/
def startElement (name : String) (members : Members) : Option Members :=
  match members.lookup name with
  | none => some (members.set name (.tables [] []))
  | some (.tables last earlier) => some (members.set name (.tables [] (last :: earlier)))
  | some _ => none

end Members

mutual

/-- The value that a finished node denotes. -/
def Node.toValue : Node → Toml
  | .value v => v
  | .table _ members => .table (membersToValues members)
  | .tables last earlier =>
    .array ((tablesToValues earlier).reverse ++ [.table (membersToValues last)])

/-- The values of the members of a finished table. -/
def membersToValues : List (String × Node) → List (String × Toml)
  | [] => []
  | (name, node) :: rest => (name, node.toValue) :: membersToValues rest

/-- The values of finished tables. -/
def tablesToValues : List (List (String × Node)) → List Toml
  | [] => []
  | members :: rest => .table (membersToValues members) :: tablesToValues rest

end

end RunJournal.Toml
