/-!
# Object paths

A bucket keeps an object under a path that is made from its key. A path is made of segments with a
slash between them, and no segment is empty: `a/b`, `/a/b` and `a//b` are keys of one object.

In a segment stand printable ASCII characters, but for some that stores advise against in names.
Every other character is written in percent notation, byte by byte of its UTF-8. A segment of one or
two dots would lead elsewhere in a tree of files, so its dots are written in this way, too.
-/

namespace RunJournal

/-- The printable characters that do not stand in a path for themselves. -/
def reservedInPaths : List Char :=
  ['/', '\\', '\x7b', '^', '\x7d', '%', '\x60', ']', '\x22', '>', '[', '~', '<', '#', '|', '*', '?']

/-- Whether a character stands in a path for itself. -/
def standsInPath (c : Char) : Bool :=
  0x20 ≤ c.toNat && c.toNat < 0x7F && !reservedInPaths.contains c

/-- A hexadecimal digit, in upper case. -/
def percentDigit (n : Nat) : Char := (Nat.digitChar n).toUpper

/-- A byte in percent notation. -/
def percentByte (b : UInt8) : List Char :=
  ['%', percentDigit (b.toNat / 16), percentDigit (b.toNat % 16)]

/-- A byte as it is written in a path. -/
def pathByte (b : UInt8) : List Char :=
  if standsInPath (Char.ofNat b.toNat) then [Char.ofNat b.toNat] else percentByte b

/-- A segment as it is written in a path. -/
def pathSegment (segment : List Char) : List Char :=
  (segment.flatMap String.utf8EncodeChar).flatMap
    (if segment = ['.'] ∨ segment = ['.', '.'] then percentByte else pathByte)

/-- The segments of a key; there is nothing between slashes that follow each other. -/
def keySegments (key : String) : List (List Char) :=
  (key.toList.splitOn '/').filter (!·.isEmpty)

/-- The path under which the object with a key is kept. -/
def objectPath (key : String) : String :=
  String.ofList (['/'].intercalate ((keySegments key).map pathSegment))

end RunJournal
