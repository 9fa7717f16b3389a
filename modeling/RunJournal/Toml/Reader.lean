import RunJournal.Toml.Scalar
import RunJournal.Toml.Table

/-!
# Reading TOML

A document is a sequence of lines: a key with its value, the header of a table, a comment, or
nothing. An array may span lines and hold comments; an inline table may not. Values may be nested
`maxDepth` deep and keys have up to `maxDepth` parts.

As in the reader of JSON, nesting recurs on the levels still allowed and every loop over the text
has its length as fuel.
-/

namespace RunJournal.Toml

/-- How deep values may be nested, and how many parts a key may have. -/
def maxDepth : Nat := 79

/-- The text after a comment, which ends before the line break. -/
def skipComment : List Char → List Char
  | '#' :: rest => rest.dropWhile isVisible
  | cs => cs

/-- The text after the end of a line: spaces, perhaps a comment, and a line break or the end of
the text. -/
def readLineEnd (cs : List Char) : Option (List Char) :=
  match skipComment (skipSpace cs) with
  | [] => some []
  | '\n' :: rest => some rest
  | '\r' :: '\n' :: rest => some rest
  | _ => none

/-- The text after spaces, comments and line breaks, `fuel` of them at most. -/
def skipLines : Nat → List Char → List Char
  | 0, cs => cs
  | fuel + 1, cs =>
    match skipSpace cs with
    | '#' :: rest => skipLines fuel (rest.dropWhile isVisible)
    | '\n' :: rest => skipLines fuel rest
    | '\r' :: '\n' :: rest => skipLines fuel rest
    | cs => cs

/-- The text after spaces, comments and line breaks. -/
def skipBlank (cs : List Char) : List Char := skipLines (cs.length + 1) cs

/-! ## Keys -/

/-- The characters of a key without quotes. -/
def isKeyChar (c : Char) : Bool := c.isAlphanum || c == '-' || c == '_'

/-- One part of a key. -/
def readKeyPart : List Char → Option (String × List Char)
  | '"' :: rest => readBasic [] rest
  | '\'' :: rest => readLiteral [] rest
  | cs =>
    match cs.takeWhile isKeyChar with
    | [] => none
    | name => some (String.ofList name, cs.dropWhile isKeyChar)

/-- The parts of a key, with points and spaces between them, up to the first character that is
neither; `fuel` bounds the number of parts. -/
def readKeyParts : Nat → List Char → Option (List String × List Char)
  | 0, _ => none
  | fuel + 1, cs => do
    let (part, cs) ← readKeyPart (skipSpace cs)
    match skipSpace cs with
    | '.' :: cs =>
      let (parts, cs) ← readKeyParts fuel cs
      some (part :: parts, cs)
    | cs => some ([part], cs)

/-- A key as the path that leads to its table and its last part. -/
def readKey (cs : List Char) : Option ((List String × String) × List Char) := do
  let (parts, cs) ← readKeyParts maxDepth cs
  let key ← parts.getLast?
  some ((parts.dropLast, key), cs)

/-! ## Values -/

/-- The items of an array up to its closing bracket, with the items read so far, last first. -/
def readItems (item : List Char → Option (Toml × List Char)) :
    Nat → List Toml → List Char → Option (List Toml × List Char)
  | 0, _, _ => none
  | fuel + 1, done, cs =>
    match skipBlank cs with
    | ']' :: rest => some (done.reverse, rest)
    | cs => do
      let (v, cs) ← item cs
      match skipBlank cs with
      | ']' :: rest => some ((v :: done).reverse, rest)
      | ',' :: rest => readItems item fuel (v :: done) rest
      | _ => none

/-- The members of an inline table up to its closing brace, added to those read so far. -/
def readMembers (value : List Char → Option (Toml × List Char)) :
    Nat → Members → List Char → Option (Members × List Char)
  | 0, _, _ => none
  | fuel + 1, members, cs => do
    let ((path, key), cs) ← readKey cs
    match cs with
    | '=' :: cs =>
      let (v, cs) ← value (skipSpace cs)
      let members ← members.put path key v
      match skipSpace cs with
      | '\x7d' :: rest => some (members, rest)
      | ',' :: rest => readMembers value fuel members rest
      | _ => none
    | _ => none

/-- A value with at most `depth` levels of arrays and inline tables. -/
def readValue (depth : Nat) (cs : List Char) : Option (Toml × List Char) :=
  match cs with
  | '"' :: _ => (readText cs).map fun (s, rest) => (.text s, rest)
  | '\'' :: _ => (readText cs).map fun (s, rest) => (.text s, rest)
  | '[' :: rest =>
    match depth with
    | 0 => none
    | depth + 1 =>
      (readItems (readValue depth) (rest.length + 1) [] rest).map
        fun (items, rest) => (.array items, rest)
  | '\x7b' :: rest =>
    match depth with
    | 0 => none
    | depth + 1 =>
      match skipSpace rest with
      | '\x7d' :: rest => some (.table [], rest)
      | rest =>
        (readMembers (readValue depth) (rest.length + 1) [] rest).map
          fun (members, rest) => (.table (membersToValues members), rest)
  | cs => readScalar cs

/-! ## Documents -/

/-- A document under construction: its nodes, and the path of the table that keys go to. -/
structure Document where
  root : Members
  current : List String

/-- The document after a line with a key and a value. -/
def Document.put (d : Document) (path : List String) (key : String) (v : Toml) : Option Document :=
  (d.root.change (Members.put path key v) d.current).map fun root => { d with root }

/-- The document after the header of a table. -/
def Document.startTable (d : Document) (path : List String) (key : String) : Option Document :=
  (d.root.change (Members.startTable key) path).map fun root => ⟨root, path ++ [key]⟩

/-- The document after the header of a table of an array. -/
def Document.startElement (d : Document) (path : List String) (key : String) : Option Document :=
  (d.root.change (Members.startElement key) path).map fun root => ⟨root, path ++ [key]⟩

/-- The lines of a document from some line on. -/
def readLines : Nat → Document → List Char → Option Document
  | 0, _, _ => none
  | fuel + 1, d, cs =>
    match skipSpace cs with
    | [] => some d
    | '\n' :: rest => readLines fuel d rest
    | '\r' :: '\n' :: rest => readLines fuel d rest
    | '#' :: rest => do
      let rest ← readLineEnd ('#' :: rest)
      readLines fuel d rest
    | '[' :: '[' :: rest => do
      let ((path, key), rest) ← readKey rest
      match rest with
      | ']' :: ']' :: rest =>
        let d ← d.startElement path key
        let rest ← readLineEnd rest
        readLines fuel d rest
      | _ => none
    | '[' :: rest => do
      let ((path, key), rest) ← readKey rest
      match rest with
      | ']' :: rest =>
        let d ← d.startTable path key
        let rest ← readLineEnd rest
        readLines fuel d rest
      | _ => none
    | cs => do
      let ((path, key), rest) ← readKey cs
      match rest with
      | '=' :: rest =>
        let (v, rest) ← readValue maxDepth (skipSpace rest)
        let d ← d.put path key v
        let rest ← readLineEnd rest
        readLines fuel d rest
      | _ => none

/-- The text after a byte order mark. -/
def skipMark : List Char → List Char
  | '\uFEFF' :: rest => rest
  | cs => cs

/-- The members of the table that a document denotes. -/
def read (cs : List Char) : Option (List (String × Toml)) :=
  let cs := skipMark cs
  (readLines (cs.length + 1) ⟨[], []⟩ cs).map fun d => membersToValues d.root

end RunJournal.Toml
