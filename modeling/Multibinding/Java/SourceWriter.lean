/-!
# Writing lines of source text

A writer collects parts of a line until the line is ended. A line is indented as far as the writer
was when the line had no part yet, and a line without parts is written without its indentation.
-/

namespace Multibinding.Java

/-- A line of source text. -/
structure Line where
  /-- How far the line is indented, in steps. -/
  indent : Nat
  /-- The parts of the line, none of them empty. -/
  parts : List String
deriving DecidableEq

/-- The text of a line with its end. A step of indentation is two blanks. -/
def Line.text (l : Line) : String :=
  if l.parts.isEmpty then "\n"
  else String.ofList (List.replicate (2 * l.indent) ' ') ++ String.join l.parts ++ "\n"

/-- What has been written so far. -/
structure SourceWriter where
  /-- The lines that are ended. -/
  lines : List Line
  /-- The line that is being written. -/
  current : Line
  /-- How far the next line is indented. -/
  indent : Nat
deriving DecidableEq

namespace SourceWriter

/-- Nothing is written yet. -/
def empty : SourceWriter :=
  { lines := [], current := { indent := 0, parts := [] }, indent := 0 }

/-- Adds a part to the current line, unless it is empty. -/
def print (part : String) (w : SourceWriter) : SourceWriter :=
  if part.isEmpty then w
  else { w with current := { w.current with parts := w.current.parts ++ [part] } }

/-- Ends the current line. -/
def endLine (w : SourceWriter) : SourceWriter :=
  { w with lines := w.lines ++ [w.current], current := { indent := w.indent, parts := [] } }

/-- Adds a part to the current line and ends it. -/
def println (part : String) (w : SourceWriter) : SourceWriter :=
  (w.print part).endLine

/-- Ends the current line, which is a blank one between members. -/
def blankLine (w : SourceWriter) : SourceWriter :=
  w.println ""

/-- Sets the indentation, also that of the current line while it has no parts. -/
def setIndent (indent : Nat) (w : SourceWriter) : SourceWriter :=
  { w with
    indent
    current := if w.current.parts.isEmpty then { w.current with indent } else w.current }

/-- Indents one step further. -/
def incIndent (w : SourceWriter) : SourceWriter :=
  w.setIndent (w.indent + 1)

/-- Indents one step less, if the writer indents at all. -/
def decIndent (w : SourceWriter) : SourceWriter :=
  w.setIndent (w.indent - 1)

/-- The text of the lines that are ended. -/
def text (w : SourceWriter) : String :=
  String.join (w.lines.map Line.text)

end SourceWriter

end Multibinding.Java
