import RunJournal.Json.Value
import RunJournal.Number.Shortest

/-!
# JSON as text

The compact form has no white space at all and the indented form one item or member a line; the
two agree on everything else. In text a quote, a backslash and the controls below U+0020 are
escaped, with a letter where JSON has one, and every other character stands for itself.
-/

namespace RunJournal.Json

/-- A hexadecimal digit, in lower case. -/
def hexDigit (n : Nat) : Char := Nat.digitChar n

/-- How one character is written inside a JSON text. -/
def escapeChar (c : Char) : List Char :=
  if c = '"' then ['\\', '"']
  else if c = '\\' then ['\\', '\\']
  else if c = '\n' then ['\\', 'n']
  else if c = '\r' then ['\\', 'r']
  else if c = '\t' then ['\\', 't']
  else if c = '\x08' then ['\\', 'b']
  else if c = '\x0c' then ['\\', 'f']
  else if c.toNat < 0x20 then ['\\', 'u', '0', '0', hexDigit (c.toNat / 16), hexDigit (c.toNat % 16)]
  else [c]

/-- A text between quotes. -/
def printText (s : String) : List Char := '"' :: s.toList.flatMap escapeChar ++ ['"']

/-- A number: integers in decimal, doubles by their shortest decimal. -/
def printNumber : Number → List Char
  | .integer i => Text.integerDigits i
  | .real x => x.text

/-- A truth value. -/
def printBool (b : Bool) : List Char := (if b then "true" else "false").toList

mutual

/-- The compact form of a value. -/
def print : Json → List Char
  | .null => "null".toList
  | .bool b => printBool b
  | .number n => printNumber n
  | .text s => printText s
  | .array items => '[' :: printItems items
  | .object members => '\x7b' :: printMembers members

/-- The items of an array with the bracket that closes it. -/
def printItems : List Json → List Char
  | [] => [']']
  | [v] => print v ++ [']']
  | v :: rest => print v ++ ',' :: printItems rest

/-- The members of an object with the brace that closes it. -/
def printMembers : List (String × Json) → List Char
  | [] => ['\x7d']
  | [(n, v)] => printText n ++ ':' :: print v ++ ['\x7d']
  | (n, v) :: rest => printText n ++ ':' :: print v ++ ',' :: printMembers rest

end

/-- A new line, indented by `depth` levels of two spaces. -/
def newLine (depth : Nat) : List Char := '\n' :: List.replicate (2 * depth) ' '

mutual

/-- The indented form of a value that stands `depth` levels deep. -/
def printIndented (depth : Nat) : Json → List Char
  | .array (v :: rest) => '[' :: printIndentedItems depth (v :: rest)
  | .object (m :: rest) => '\x7b' :: printIndentedMembers depth (m :: rest)
  | v => print v

/-- The items of an array, each on a line of its own. -/
def printIndentedItems (depth : Nat) : List Json → List Char
  | [] => newLine depth ++ [']']
  | [v] => newLine (depth + 1) ++ printIndented (depth + 1) v ++ newLine depth ++ [']']
  | v :: rest =>
    newLine (depth + 1) ++ printIndented (depth + 1) v ++ ',' :: printIndentedItems depth rest

/-- The members of an object, each on a line of its own. -/
def printIndentedMembers (depth : Nat) : List (String × Json) → List Char
  | [] => newLine depth ++ ['\x7d']
  | [(n, v)] =>
    newLine (depth + 1) ++ printText n ++ [':', ' '] ++ printIndented (depth + 1) v ++
      newLine depth ++ ['\x7d']
  | (n, v) :: rest =>
    newLine (depth + 1) ++ printText n ++ [':', ' '] ++ printIndented (depth + 1) v ++
      ',' :: printIndentedMembers depth rest

end

/-- The compact form as a string. -/
def compact (v : Json) : String := String.ofList v.print

/-- The indented form as a string. -/
def indented (v : Json) : String := String.ofList (v.printIndented 0)

end RunJournal.Json
