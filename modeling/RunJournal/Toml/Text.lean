import RunJournal.Text.Digits

/-!
# Text in TOML

Text stands between quotes in one of four ways. Between **double quotes** a backslash starts an
escape; between **single quotes** every character stands for itself. Either kind may be tripled,
and then the text may span lines: a line break right after the opening quotes is dropped, every
other one counts as a line feed, and one or two quotes may stand anywhere, also before the closing
three. In tripled double quotes a backslash at the end of a line removes the line break and all
white space that follows it.

The readers take the text after the opening quote and answer with the value and what follows the
closing quote, or with nothing where the text is not well formed.
-/

namespace RunJournal.Toml

/-- The characters that may stand in comments and between quotes: all but controls, of which the
tab is allowed. -/
def isVisible (c : Char) : Bool := c == '\t' || (0x20 ≤ c.toNat && c.toNat != 0x7F)

/-- The white space within a line. -/
def isSpace (c : Char) : Bool := c == ' ' || c == '\t'

/-- The text after its first spaces and tabs. -/
def skipSpace (cs : List Char) : List Char := cs.dropWhile isSpace

/-- The character that a letter after a backslash stands for. -/
def unescape? : Char → Option Char
  | 'b' => some '\x08'
  | 'f' => some '\x0c'
  | 'n' => some '\n'
  | 'r' => some '\r'
  | 't' => some '\t'
  | '"' => some '"'
  | '\\' => some '\\'
  | _ => none

/-- The digit value of a character in a base of at most 16. -/
def baseDigit? (base : Nat) (c : Char) : Option Nat :=
  let n :=
    if '0' ≤ c && c ≤ '9' then c.toNat - '0'.toNat
    else if 'a' ≤ c && c ≤ 'f' then c.toNat - 'a'.toNat + 10
    else if 'A' ≤ c && c ≤ 'F' then c.toNat - 'A'.toNat + 10
    else base
  if n < base then some n else none

/-- The number that digits of a base denote. -/
def ofBase? (base : Nat) (cs : List Char) : Option Nat :=
  cs.foldlM (fun n c => (baseDigit? base c).map (n * base + ·)) 0

/-- The character whose code point hexadecimal digits denote. -/
def ofCodePoint? (cs : List Char) : Option Char :=
  (ofBase? 16 cs).bind fun n => if n.isValidChar then some (Char.ofNat n) else none

/-- The text gathered so far, which is held last character first. -/
def gathered (done : List Char) : String := String.ofList done.reverse

/-- Text between double quotes. -/
def readBasic (done : List Char) : List Char → Option (String × List Char)
  | [] => none
  | '"' :: rest => some (gathered done, rest)
  | '\\' :: 'u' :: a :: b :: c :: d :: rest =>
    (ofCodePoint? [a, b, c, d]).bind fun u => readBasic (u :: done) rest
  | '\\' :: 'U' :: a :: b :: c :: d :: e :: f :: g :: h :: rest =>
    (ofCodePoint? [a, b, c, d, e, f, g, h]).bind fun u => readBasic (u :: done) rest
  | '\\' :: c :: rest => (unescape? c).bind fun u => readBasic (u :: done) rest
  | c :: rest => if isVisible c && c != '\\' then readBasic (c :: done) rest else none

/-- Text between single quotes. -/
def readLiteral (done : List Char) : List Char → Option (String × List Char)
  | [] => none
  | '\'' :: rest => some (gathered done, rest)
  | c :: rest => if isVisible c then readLiteral (c :: done) rest else none

/-- What came before in tripled double quotes: nothing special, a backslash and perhaps spaces, or
the line break after them. -/
inductive LineEnd where
  | none
  | awaited
  | passed
deriving DecidableEq, Repr

/-- Text between tripled double quotes. -/
def readBasicLines (done : List Char) : LineEnd → List Char → Option (String × List Char)
  | _, [] => none
  | .none, '\n' :: rest => readBasicLines ('\n' :: done) .none rest
  | .none, '\r' :: '\n' :: rest => readBasicLines ('\n' :: done) .none rest
  | _, '\n' :: rest => readBasicLines done .passed rest
  | _, '\r' :: '\n' :: rest => readBasicLines done .passed rest
  | .awaited, c :: rest => if isSpace c then readBasicLines done .awaited rest else none
  | _, '"' :: '"' :: '"' :: '"' :: '"' :: rest => some (gathered ('"' :: '"' :: done), rest)
  | _, '"' :: '"' :: '"' :: '"' :: rest => some (gathered ('"' :: done), rest)
  | _, '"' :: '"' :: '"' :: rest => some (gathered done, rest)
  | _, '\\' :: 'u' :: a :: b :: c :: d :: rest =>
    (ofCodePoint? [a, b, c, d]).bind fun u => readBasicLines (u :: done) .none rest
  | _, '\\' :: 'U' :: a :: b :: c :: d :: e :: f :: g :: h :: rest =>
    (ofCodePoint? [a, b, c, d, e, f, g, h]).bind fun u => readBasicLines (u :: done) .none rest
  | _, '\\' :: '\n' :: rest => readBasicLines done .passed rest
  | _, '\\' :: '\r' :: '\n' :: rest => readBasicLines done .passed rest
  | _, '\\' :: c :: rest =>
    if isSpace c then readBasicLines done .awaited rest
    else (unescape? c).bind fun u => readBasicLines (u :: done) .none rest
  | before, c :: rest =>
    if before == .passed && isSpace c then readBasicLines done .passed rest
    else if isVisible c && c != '\\' then readBasicLines (c :: done) .none rest
    else none

/-- Text between tripled single quotes. -/
def readLiteralLines (done : List Char) : List Char → Option (String × List Char)
  | [] => none
  | '\n' :: rest => readLiteralLines ('\n' :: done) rest
  | '\r' :: '\n' :: rest => readLiteralLines ('\n' :: done) rest
  | '\'' :: '\'' :: '\'' :: '\'' :: '\'' :: rest => some (gathered ('\'' :: '\'' :: done), rest)
  | '\'' :: '\'' :: '\'' :: '\'' :: rest => some (gathered ('\'' :: done), rest)
  | '\'' :: '\'' :: '\'' :: rest => some (gathered done, rest)
  | c :: rest => if isVisible c then readLiteralLines (c :: done) rest else none

/-- The text after a line break, if it begins with one. -/
def skipLineEnd : List Char → List Char
  | '\n' :: rest => rest
  | '\r' :: '\n' :: rest => rest
  | cs => cs

/-- Text in any of the four ways, quotes included. -/
def readText : List Char → Option (String × List Char)
  | '"' :: '"' :: '"' :: rest => readBasicLines [] .none (skipLineEnd rest)
  | '\'' :: '\'' :: '\'' :: rest => readLiteralLines [] (skipLineEnd rest)
  | '"' :: rest => readBasic [] rest
  | '\'' :: rest => readLiteral [] rest
  | _ => none

end RunJournal.Toml
