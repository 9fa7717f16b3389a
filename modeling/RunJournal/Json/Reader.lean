import RunJournal.Json.Numeral

/-!
# Reading JSON

The reader works on a list of characters and answers with a value and the characters after it. It
refuses a text for one of two causes: the text **ends early**, or it **is not JSON** at the first
character that no value allows; an object or array inside `maxDepth` others, a numeral too great
for a double and a lone surrogate are not JSON either. A third cause, **wrong shape**, is for
readers of records: the text is JSON, but of a value that the record cannot have.

Nesting recurs on the number of levels still allowed. Inside one level the items of an array
(`readItems`) and the members of an object (`readMembers`) are loops over the text; both take the
reader of one item or member as an argument, so that a record may read its own members in its
own way. Their fuel is the length of the text, which every round shortens.
-/

namespace RunJournal.Json

/-- Why a text is refused. -/
inductive Fault where
  | endsEarly
  | notJson
  | wrongShape
deriving DecidableEq, Repr

/-- What a reader answers: a value and the text after it, or the cause of refusal. -/
abbrev Parsed (α : Type) := Except Fault (α × List Char)

/-- How many levels of arrays and objects a text may have. -/
def maxDepth : Nat := 127

/-- The characters that may stand between the parts of a JSON text. -/
def isSpace (c : Char) : Bool := c == ' ' || c == '\n' || c == '\t' || c == '\r'

/-- The text from its first character that is no space. -/
def skipSpace (cs : List Char) : List Char := cs.dropWhile isSpace

/-! ## Words and numerals -/

/-- The text after `word`, which it has to begin with. -/
def readWord : List Char → List Char → Except Fault (List Char)
  | [], cs => .ok cs
  | _ :: _, [] => .error .endsEarly
  | w :: word, c :: cs => if c = w then readWord word cs else .error .notJson

/-- One or more digits at the start of the text. -/
def readDigits (cs : List Char) : Parsed (List Char) :=
  match cs.takeWhile Char.isDigit with
  | [] => .error (if cs.isEmpty then .endsEarly else .notJson)
  | ds => .ok (ds, cs.dropWhile Char.isDigit)

/-- The digits before the point: one digit, or several of which the first is not zero. -/
def readWhole (cs : List Char) : Except Fault (List Char × List Char) := do
  let (ds, rest) ← readDigits cs
  if ds.head? = some '0' && 1 < ds.length then .error .notJson else .ok (ds, rest)

/-- The point and the digits after it, if the text begins with a point. -/
def readFraction : List Char → Except Fault (Option (List Char) × List Char)
  | '.' :: cs => do
    let (ds, rest) ← readDigits cs
    .ok (some ds, rest)
  | cs => .ok (none, cs)

/-- An exponent: an optional sign and digits. -/
def readPower : List Char → Parsed (Bool × List Char)
  | '-' :: cs => (readDigits cs).map fun (ds, rest) => ((true, ds), rest)
  | '+' :: cs => (readDigits cs).map fun (ds, rest) => ((false, ds), rest)
  | cs => (readDigits cs).map fun (ds, rest) => ((false, ds), rest)

/-- The mark of an exponent and the exponent, if the text begins with the mark. -/
def readExponent : List Char → Parsed (Option (Bool × List Char))
  | 'e' :: cs => (readPower cs).map fun (p, rest) => (some p, rest)
  | 'E' :: cs => (readPower cs).map fun (p, rest) => (some p, rest)
  | cs => .ok (none, cs)

/-- A number without its sign. -/
def readUnsigned (negative : Bool) (cs : List Char) : Except Fault (Number × List Char) := do
  let (whole, cs) ← readWhole cs
  let (fraction, cs) ← readFraction cs
  let (exponent, cs) ← readExponent cs
  match Numeral.value ⟨negative, whole, fraction, exponent⟩ with
  | some n => .ok (n, cs)
  | none => .error .notJson

/-! ## Text -/

/-- The value of a hexadecimal digit. -/
def hexValue? (c : Char) : Option Nat :=
  if '0' ≤ c && c ≤ '9' then some (c.toNat - '0'.toNat)
  else if 'a' ≤ c && c ≤ 'f' then some (c.toNat - 'a'.toNat + 10)
  else if 'A' ≤ c && c ≤ 'F' then some (c.toNat - 'A'.toNat + 10)
  else none

/-- The code unit that four hexadecimal digits denote. -/
def codeUnit? (a b c d : Char) : Option Nat := do
  let w ← hexValue? a
  let x ← hexValue? b
  let y ← hexValue? c
  let z ← hexValue? d
  some (((w * 16 + x) * 16 + y) * 16 + z)

/-- A code unit that starts a surrogate pair. -/
def isHighSurrogate (n : Nat) : Bool := 0xD800 ≤ n && n ≤ 0xDBFF

/-- A code unit that ends a surrogate pair. -/
def isLowSurrogate (n : Nat) : Bool := 0xDC00 ≤ n && n ≤ 0xDFFF

/-- The character that a letter after a backslash stands for. -/
def unescape? : Char → Option Char
  | '"' => some '"'
  | '\\' => some '\\'
  | '/' => some '/'
  | 'b' => some '\x08'
  | 'f' => some '\x0c'
  | 'n' => some '\n'
  | 'r' => some '\r'
  | 't' => some '\t'
  | _ => none

/-- The cause of refusal where fewer than four characters follow `\u`: the text ends early if
their encoding has fewer than four bytes. -/
def shortUnit (cs : List Char) : Fault :=
  if cs.foldl (fun n c => n + c.utf8Size) 0 < 4 then .endsEarly else .notJson

/-- The rest of a text after its opening quote; `done` holds, last first, the characters read so
far, and `high` the first half of a surrogate pair whose second half has to follow. -/
def readTextFrom (high : Option Nat) (done : List Char) : List Char → Parsed String
  | [] => .error .endsEarly
  | '\\' :: [] => .error .endsEarly
  | '\\' :: 'u' :: a :: b :: c :: d :: rest =>
    match codeUnit? a b c d with
    | none => .error .notJson
    | some n =>
      match high with
      | some h =>
        if isLowSurrogate n then
          let code := (h - 0xD800) * 0x400 + (n - 0xDC00) + 0x10000
          readTextFrom none (Char.ofNat code :: done) rest
        else .error .notJson
      | none =>
        if isLowSurrogate n then .error .notJson
        else if isHighSurrogate n then readTextFrom (some n) done rest
        else readTextFrom none (Char.ofNat n :: done) rest
  | '\\' :: 'u' :: rest => .error (shortUnit rest)
  | '\\' :: c :: rest =>
    match high, unescape? c with
    | none, some u => readTextFrom none (u :: done) rest
    | _, _ => .error .notJson
  | c :: rest =>
    if high.isSome then .error .notJson
    else if c = '"' then .ok (String.ofList done.reverse, rest)
    else if c.toNat < 0x20 then .error .notJson
    else readTextFrom none (c :: done) rest

/-- A text after its opening quote. -/
def readText (cs : List Char) : Parsed String := readTextFrom none [] cs

/-! ## Arrays and objects -/

/-- The items of an array up to its closing bracket, which are read by `item`; `first` says that
no item was read yet, and `done` holds the items read so far, last first. -/
def readItems {α : Type} (item : List Char → Parsed α) :
    Nat → Bool → List α → List Char → Except Fault (List α × List Char)
  | 0, _, _, _ => .error .endsEarly
  | fuel + 1, first, done, cs =>
    match skipSpace cs with
    | [] => .error .endsEarly
    | ']' :: rest => .ok (done.reverse, rest)
    | c :: rest =>
      if first then do
        let (v, rest) ← item (c :: rest)
        readItems item fuel false (v :: done) rest
      else if c = ',' then
        match skipSpace rest with
        | [] => .error .endsEarly
        | ']' :: _ => .error .notJson
        | cs => do
          let (v, rest) ← item cs
          readItems item fuel false (v :: done) rest
      else .error .notJson

/-- The text after the colon that separates a name from its value. -/
def readColon (cs : List Char) : Except Fault (List Char) :=
  match skipSpace cs with
  | [] => .error .endsEarly
  | ':' :: rest => .ok rest
  | _ => .error .notJson

/-- The members of an object up to its closing brace. `member` takes what was gathered so far and
a name, and reads what stands after the name, colon included. -/
def readMembers {σ : Type} (member : σ → String → List Char → Parsed σ) :
    Nat → Bool → σ → List Char → Except Fault (σ × List Char)
  | 0, _, _, _ => .error .endsEarly
  | fuel + 1, first, gathered, cs =>
    match skipSpace cs with
    | [] => .error .endsEarly
    | '\x7d' :: rest => .ok (gathered, rest)
    | c :: rest =>
      if first then
        if c = '"' then do
          let (name, rest) ← readText rest
          let (gathered, rest) ← member gathered name rest
          readMembers member fuel false gathered rest
        else .error .notJson
      else if c = ',' then
        match skipSpace rest with
        | [] => .error .endsEarly
        | '"' :: rest => do
          let (name, rest) ← readText rest
          let (gathered, rest) ← member gathered name rest
          readMembers member fuel false gathered rest
        | _ => .error .notJson
      else .error .notJson

/-- Reads the value of a member by `value` and gathers it, last member first. -/
def readMember (value : List Char → Parsed Json) (gathered : List (String × Json))
    (name : String) (cs : List Char) : Except Fault (List (String × Json) × List Char) := do
  let cs ← readColon cs
  let (v, cs) ← value cs
  .ok ((name, v) :: gathered, cs)

/-- A value that may contain `depth` levels of arrays and objects. -/
def readValue (depth : Nat) (cs : List Char) : Parsed Json :=
  match skipSpace cs with
  | [] => .error .endsEarly
  | 'n' :: rest => (readWord ['u', 'l', 'l'] rest).map fun rest => (.null, rest)
  | 't' :: rest => (readWord ['r', 'u', 'e'] rest).map fun rest => (.bool true, rest)
  | 'f' :: rest => (readWord ['a', 'l', 's', 'e'] rest).map fun rest => (.bool false, rest)
  | '"' :: rest => (readText rest).map fun (s, rest) => (.text s, rest)
  | '-' :: rest => (readUnsigned true rest).map fun (n, rest) => (.number n, rest)
  | '[' :: rest =>
    match depth with
    | 0 => .error .notJson
    | depth + 1 =>
      (readItems (readValue depth) (rest.length + 1) true [] rest).map
        fun (items, rest) => (.array items, rest)
  | '\x7b' :: rest =>
    match depth with
    | 0 => .error .notJson
    | depth + 1 =>
      (readMembers (readMember (readValue depth)) (rest.length + 1) true [] rest).map
        fun (members, rest) => (.object members.reverse, rest)
  | c :: rest =>
    if c.isDigit then (readUnsigned false (c :: rest)).map fun (n, rest) => (.number n, rest)
    else .error .notJson

/-- Succeeds where only space is left. -/
def readEnd (cs : List Char) : Except Fault Unit :=
  if (skipSpace cs).isEmpty then .ok () else .error .notJson

/-- The value of a whole text. -/
def read (cs : List Char) : Except Fault Json := do
  let (v, rest) ← readValue maxDepth cs
  readEnd rest
  .ok v

end RunJournal.Json
