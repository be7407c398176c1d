/-!
# Text

Cutting text into parts. The functions work on the list of characters, so that what they do to it
can be stated without positions.
-/

namespace Multibinding.Text

/-- The parts of a text between the occurrences of a separator; always at least one part. -/
def split (separator : Char) (s : String) : List String :=
  (s.toList.splitOn separator).map String.ofList

/-- The text without the characters at both ends that satisfy a predicate. -/
def trim (p : Char → Bool) (s : String) : String :=
  String.ofList ((s.toList.dropWhile p).reverse.dropWhile p).reverse

/-- A character in lower case. The names that settings have use ASCII letters, and the only other
character whose lower case is one of these is the Kelvin sign. -/
def lowerChar (c : Char) : Char :=
  if c = '\u212a' then 'k' else c.toLower

/-- A text in lower case, as far as names of settings need it. -/
def lower (s : String) : String :=
  String.ofList (s.toList.map lowerChar)

/-- Ends the line whose characters are given in reverse: a carriage return before the line feed
belongs to the line end. -/
def endLine : List Char → List Char
  | '\r' :: line => line.reverse
  | line => line.reverse

/-- The lines of what is left, where `line` holds in reverse what the current line has so far. -/
def linesFrom (line : List Char) : List Char → List (List Char)
  | [] => if line.isEmpty then [] else [line.reverse]
  | c :: rest => if c = '\n' then endLine line :: linesFrom [] rest else linesFrom (c :: line) rest

/-- The lines of a text. A line ends at a line feed, with or without a carriage return before it;
the last line needs no end. -/
def lines (s : String) : List String :=
  (linesFrom [] s.toList).map String.ofList

end Multibinding.Text
