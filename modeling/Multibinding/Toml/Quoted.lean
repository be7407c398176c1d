/-!
# Quoted texts in TOML

A text is written between double quotes as it is, where that can be done. Otherwise one of the other
three forms is tried that needs no escapes, and if there is none, what needs an escape is escaped.
A form of several lines starts on a line of its own if the text has several lines.
-/

namespace Multibinding.Toml

/-- The length of the longest run of a character. -/
def longestRun (c : Char) (s : List Char) : Nat :=
  (s.foldl (fun (longest, run) d =>
    if d = c then (max longest (run + 1), run + 1) else (longest, 0)) (0, 0)).1

/-- Whether a character can only be written as an escape. -/
def needsEscape (c : Char) : Bool :=
  (c < ' ' && c != '\t' && c != '\n') || c == '\x7f'

/-- The four digits of a character's escape. -/
def escapeDigits (c : Char) : List Char :=
  let digits := (Nat.toDigits 16 c.toNat).map Char.toUpper
  List.replicate (4 - digits.length) '0' ++ digits

/-- A character between double quotes; of a run of quotes, `run` of which have been written, those
beyond `quotes` are escaped, and a line feed if `quotes` is zero. -/
def escaped (quotes run : Nat) (c : Char) : List Char :=
  match c with
  | '"' => if run < quotes then ['"'] else ['\\', '"']
  | '\n' => if quotes = 0 then ['\\', 'n'] else ['\n']
  | '\x08' => ['\\', 'b']
  | '\t' => ['\\', 't']
  | '\x0c' => ['\\', 'f']
  | '\r' => ['\\', 'r']
  | '\\' => ['\\', '\\']
  | c => if needsEscape c then '\\' :: 'u' :: escapeDigits c else [c]

/-- The characters between double quotes, of which at most `quotes` in a row are not escaped. -/
def escapedText (quotes : Nat) (run : Nat) : List Char → List Char
  | [] => []
  | c :: rest =>
    let next := if c = '"' ∧ run < quotes then run + 1 else 0
    escaped quotes run c ++ escapedText quotes next rest

/-- The text between quotes. -/
def quoted (s : String) : String :=
  let cs := s.toList
  let coded := cs.any needsEscape
  let backslash := cs.contains '\\'
  let several := cs.contains '\n'
  let start := if several then ['\n'] else []
  let between (quotes body : List Char) : String := String.ofList (quotes ++ body ++ quotes)
  let basic := ['"']
  let longBasic := ['"', '"', '"']
  let literal := ['\'']
  let longLiteral := ['\'', '\'', '\'']
  if !coded && !backslash && !several && longestRun '"' cs = 0 then
    between basic (escapedText 0 0 cs)
  else if !coded && !several && longestRun '\'' cs = 0 then between literal cs
  else if !coded && !backslash && longestRun '"' cs ≤ 2 then
    between longBasic (start ++ escapedText 2 0 cs)
  else if !coded && longestRun '\'' cs ≤ 2 then between longLiteral (start ++ cs)
  else if several then between longBasic (start ++ escapedText 2 0 cs)
  else between basic (escapedText 0 0 cs)

end Multibinding.Toml
