/-!
# Lines of a byte stream

A line ends at a line feed, which belongs to it, or at the end of the stream; a stream that ends
in a line feed has no line after it.

What a line says is in the bytes before its end (`withoutLineEnd`). A carriage return right before
the line feed belongs to the end too; one that the stream ends in does not.
-/

namespace RunJournal.Text

/-- The byte that ends a line. -/
def lineFeed : UInt8 := 0x0A

/-- The byte that may stand before a line feed and is then a part of the line's end. -/
def carriageReturn : UInt8 := 0x0D

/-- The lines of a stream whose last unfinished line begins, last byte first, with `line`. -/
def linesFrom (line : List UInt8) : List UInt8 → List (List UInt8)
  | [] => if line.isEmpty then [] else [line.reverse]
  | b :: rest =>
    if b == lineFeed then (b :: line).reverse :: linesFrom [] rest
    else linesFrom (b :: line) rest

/-- The lines of a stream, each with the line feed that ends it. -/
def lines (bytes : List UInt8) : List (List UInt8) := linesFrom [] bytes

/-- Bytes without the carriage return that they may end in. -/
def dropReturn (bytes : List UInt8) : List UInt8 :=
  if bytes.getLast? = some carriageReturn then bytes.dropLast else bytes

/-- The bytes of a line before its end. -/
def withoutLineEnd (line : List UInt8) : List UInt8 :=
  if line.getLast? = some lineFeed then dropReturn line.dropLast else line

/-- Nothing is taken from bytes that do not end in a line feed. -/
theorem withoutLineEnd_of_getLast?_ne {line : List UInt8} (h : line.getLast? ≠ some lineFeed) :
    withoutLineEnd line = line := by
  simp [withoutLineEnd, h]

end RunJournal.Text
