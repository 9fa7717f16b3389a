import RunJournal.Json.Reader

/-!
# Records in JSON

A record is written as an object with its fields as members, in any order and among members of
other names, which are passed over; or as an array of its fields in the order of their declaration,
where fields at the end may be left out. A field given twice and a surplus item of an array are of
the wrong shape.
-/

namespace RunJournal.Json

/-- The fields of a record that a value gives, by name. -/
def fields? (names : List String) : Json → Option (List (String × Json))
  | .object members =>
    let known := members.filter fun m => names.contains m.1
    if (known.map Prod.fst).Nodup then some known else none
  | .array items => if items.length ≤ names.length then some (names.zip items) else none
  | _ => none

/-- A field that the record has to give. -/
def required {α : Type} (fields : List (String × Json)) (name : String)
    (read : Json → Option α) : Option α :=
  (fields.lookup name).bind read

/-- A field with a default for a record that does not give it. -/
def optional {α : Type} (fields : List (String × Json)) (name : String)
    (read : Json → Option α) (default : α) : Option α :=
  match fields.lookup name with
  | none => some default
  | some v => read v

/-- The text of a text. -/
def asText : Json → Option String
  | .text s => some s
  | _ => none

/-- Nothing for `null`, and otherwise what `read` makes of the value. -/
def orNull {α : Type} (read : Json → Option α) : Json → Option (Option α)
  | .null => some none
  | v => (read v).map some

/-- An integer below `limit` that is not negative. -/
def asNatBelow (limit : Nat) : Json → Option Nat
  | .number (.integer i) => if 0 ≤ i && i < limit then some i.toNat else none
  | _ => none

/-- A list of what `read` makes of the items of an array. -/
def asList {α : Type} (read : Json → Option α) : Json → Option (List α)
  | .array items => items.mapM read
  | _ => none

end RunJournal.Json
