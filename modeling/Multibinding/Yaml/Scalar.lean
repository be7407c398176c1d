import Multibinding.Number.Extended
import Multibinding.Setting.Basic

/-!
# Scanning YAML

A cursor stands in a text whose line ends are line feeds, and knows the column it stands at. This
module takes from it what lies between tokens and all kinds of scalars: plain ones, quoted ones,
and blocks of lines. Where a scalar stands in a block, `least` is the least column that its lines
may start at, which is one more than the column of the block around it.
-/

namespace Multibinding.Yaml

/-- A place in a text, with the values that have been given names before it. -/
structure Cursor where
  /-- What is left of the text. -/
  rest : List Char
  /-- How many characters of the line come before the place. -/
  column : Nat
  /-- The named values. -/
  anchors : List (String × Setting)

/-- Takes characters from a text. -/
abbrev Scan (α : Type) : Type :=
  StateT Cursor Option α

/-- Whether there is a blank at the front of a text. -/
def startsBlank : List Char → Bool
  | ' ' :: _ | '\t' :: _ => true
  | _ => false

/-- Whether a line ends at the front of a text. -/
def endsLine : List Char → Bool
  | [] | '\n' :: _ => true
  | _ => false

/-- Whether a token ends at the front of a text. -/
def endsToken (s : List Char) : Bool :=
  startsBlank s || endsLine s

/-- Whether a character separates the parts of a flow collection. -/
def isFlow (c : Char) : Bool :=
  c == ',' || c == '[' || c == ']' || c == '\x7b' || c == '\x7d'

/-- Whether the front of a text is a mark between documents, given its column. -/
def atMark (column : Nat) : List Char → Bool
  | '-' :: '-' :: '-' :: s | '.' :: '.' :: '.' :: s => column == 0 && endsToken s
  | _ => false

namespace Scan

/-- What is left of the text. -/
def rest : Scan (List Char) := do
  return (← get).rest

/-- The column of the place. -/
def column : Scan Nat := do
  return (← get).column

/-- Takes the next character. -/
def next : Scan Char := do
  let cursor ← get
  match cursor.rest with
  | [] => failure
  | c :: s => do
    set { cursor with rest := s, column := if c = '\n' then 0 else cursor.column + 1 }
    return c

/-- Takes a number of characters. -/
def skip : Nat → Scan Unit
  | 0 => pure ()
  | count + 1 => do
    let _ ← next
    skip count

/-- Takes all characters up to the first that does not satisfy a predicate. -/
def whileTrue (p : Char → Bool) : Scan (List Char) := do
  let taken := (← rest).takeWhile p
  skip taken.length
  return taken

/-- Takes blanks. -/
def blanks : Scan Unit := do
  let _ ← whileTrue fun c => c == ' ' || c == '\t'

/-- Whether the text is over, or the document at a mark. -/
def atDocumentEnd : Scan Bool := do
  let s ← rest
  return s.isEmpty || atMark (← column) s

/-- Takes blanks, comments and line ends up to the next token, and tells whether a line has ended.
A comment needs a blank in front of it. A line with a token must not have a tab where its block is
indented. -/
def gapWithin (least : Nat) : Nat → Bool → Bool → Scan Bool
  | 0, crossed, _ => pure crossed
  | count + 1, crossed, blank => do
    match ← rest with
    | ' ' :: _ =>
      skip 1
      gapWithin least count crossed true
    | '\t' :: s =>
      if crossed && (← column) + 1 < least &&
          !endsLine (s.dropWhile (fun c => c == ' ' || c == '\t'))
      then failure
      skip 1
      gapWithin least count crossed true
    | '\n' :: _ =>
      skip 1
      gapWithin least count true true
    | '#' :: s =>
      if blank || (← column) = 0 then
        skip (1 + (s.takeWhile (· != '\n')).length)
        gapWithin least count crossed true
      else return crossed
    | _ => return crossed

/-- Takes what lies between tokens, and tells whether a line has ended. -/
def gap (least : Nat) : Scan Bool := do
  gapWithin least ((← rest).length + 1) false false

/-- The value of a hexadecimal digit. -/
def hexDigit? (c : Char) : Option Nat :=
  if c.isDigit then some (c.toNat - '0'.toNat)
  else if 'a' ≤ c.toLower ∧ c.toLower ≤ 'f' then some (c.toLower.toNat - 'a'.toNat + 10)
  else none

/-- Takes the code of a character in hexadecimal digits. -/
def hexChar : Nat → Nat → Scan Char
  | 0, code => if code.isValidChar then pure (Char.ofNat code) else failure
  | count + 1, code => do
    match hexDigit? (← next) with
    | some digit => hexChar count (code * 16 + digit)
    | none => failure

/-- Takes the part of an escape behind the backslash. -/
def escape : Scan Char := do
  match ← next with
  | '0' => return '\x00'
  | 'a' => return '\x07'
  | 'b' => return '\x08'
  | 't' | '\t' => return '\t'
  | 'n' => return '\n'
  | 'v' => return '\x0b'
  | 'f' => return '\x0c'
  | 'r' => return '\r'
  | 'e' => return '\x1b'
  | ' ' => return ' '
  | '"' => return '"'
  | '/' => return '/'
  | '\\' => return '\\'
  | 'N' => return '\u0085'
  | '_' => return '\u00a0'
  | 'L' => return '\u2028'
  | 'P' => return '\u2029'
  | 'x' => hexChar 2 0
  | 'u' => hexChar 4 0
  | 'U' => hexChar 8 0
  | _ => failure

/-- Takes the line ends and blanks between two lines of text, the first line end being the next
character, and returns what they stand for: one line end for a blank, and each further one for
itself. -/
def fold : Scan (List Char) := do
  let space := (← rest).takeWhile fun c => c == ' ' || c == '\t' || c == '\n'
  skip space.length
  match space.count '\n' with
  | 0 | 1 => return [' ']
  | breaks + 2 => return List.replicate (breaks + 1) '\n'

/-- Takes the text of a quoted scalar up to the quote that ends it. -/
def quotedWithin (quote : Char) (least : Nat) : Nat → Scan (List Char)
  | 0 => failure
  | count + 1 => do
    let s ← rest
    if atMark (← column) s then failure
    match s with
    | [] => failure
    | c :: after =>
      if c = quote then
        skip 1
        if quote = '\'' ∧ after.head? = some '\'' then
          skip 1
          return quote :: (← quotedWithin quote least count)
        else return []
      else if c = '\\' ∧ quote = '"' then
        skip 1
        if after.head? = some '\n' then
          let space := after.drop 1 |>.takeWhile fun c => c == ' ' || c == '\t' || c == '\n'
          skip (1 + space.length)
          return List.replicate (space.count '\n') '\n' ++ (← quotedWithin quote least count)
        else
          let c ← escape
          return c :: (← quotedWithin quote least count)
      else
        let space := s.takeWhile fun c => c == ' ' || c == '\t'
        if (s.drop space.length).head? = some '\n' then
          skip space.length
          let folded ← fold
          if (← column) + 1 < least then failure
          return folded ++ (← quotedWithin quote least count)
        else
          skip 1
          return c :: (← quotedWithin quote least count)

/-- Takes a quoted scalar. -/
def quoted (least : Nat) : Scan String := do
  let quote ← next
  return String.ofList (← quotedWithin quote least ((← rest).length + 1))

/-- Whether a plain scalar goes on with the next character. -/
def goesOn (flow : Bool) : List Char → Bool
  | [] => false
  | ':' :: s => !(endsToken s || (flow && s.head?.any isFlow))
  | c :: _ => !(flow && isFlow c) && !endsToken [c]

/-- Takes the words of a plain scalar up to the end of its line. -/
def wordsWithin (flow : Bool) : Nat → Scan (List Char)
  | 0 => failure
  | count + 1 => do
    let s ← rest
    if goesOn flow s then
      let c ← next
      return c :: (← wordsWithin flow count)
    else
      let space := s.takeWhile fun c => c == ' ' || c == '\t'
      let after := s.drop space.length
      if !space.isEmpty && goesOn flow after && after.head? != some '#' then
        skip space.length
        return space ++ (← wordsWithin flow count)
      else return []

/-- Takes the part of a plain scalar on one line. -/
def words (flow : Bool) : Scan (List Char) := do
  wordsWithin flow ((← rest).length + 1)

/-- Takes the further lines of a plain scalar. -/
def linesWithin (flow : Bool) (least : Nat) : Nat → Scan (List Char)
  | 0 => failure
  | count + 1 => do
    let before ← get
    blanks
    match ← rest with
    | '\n' :: _ =>
      let folded ← fold
      let s ← rest
      let more := goesOn flow s && s.head? != some '#' && !atMark (← column) s
      if more && (flow || least ≤ (← column)) then
        let line ← words flow
        return folded ++ line ++ (← linesWithin flow least count)
      else
        set before
        return []
    | _ =>
      set before
      return []

/-- Takes a plain scalar. -/
def plain (flow : Bool) (least : Nat) : Scan String := do
  let first ← words flow
  let more ← linesWithin flow least ((← rest).length + 1)
  return String.ofList (first ++ more)

/-- What becomes of the line ends at the end of a block of lines. -/
inductive Chomping where
  | strip
  | clip
  | keep
deriving DecidableEq

/-- Takes the signs behind the mark of a block of lines: what becomes of its end, and how far it is
indented. -/
def blockSigns : Scan (Chomping × Option Nat) := do
  let signs ← whileTrue fun c => c == '+' || c == '-' || c.isDigit
  let chomping (c : Char) : Chomping := if c = '+' then .keep else .strip
  match signs with
  | [] => return (.clip, none)
  | [a] =>
    if a = '0' then failure
    else if a.isDigit then return (.clip, some (a.toNat - '0'.toNat))
    else return (chomping a, none)
  | [a, b] =>
    if a = '0' ∨ b = '0' ∨ a.isDigit = b.isDigit then failure
    else if a.isDigit then return (chomping b, some (a.toNat - '0'.toNat))
    else return (chomping a, some (b.toNat - '0'.toNat))
  | _ => failure

/-- How many blanks a line starts with. -/
def indentation (line : List Char) : Nat :=
  (line.takeWhile (· == ' ')).length

/-- The lines of a block from what is left of the text, each without its indentation: blank lines,
and those that are indented far enough. -/
def blockLines (indent : Nat) : List (List Char) → List (List Char)
  | [] => []
  | line :: rest =>
    if line.all (· == ' ') then line.drop indent :: blockLines indent rest
    else if indent ≤ indentation line then line.drop indent :: blockLines indent rest
    else []

/-- Joins the lines of a folded block: a line end between two lines that start with no blank is a
blank, unless empty lines stand between them. `blank` tells whether the line before started with a
blank, and `breaks` how many lines have ended since its text. -/
def foldLines (blank : Bool) (breaks : Nat) : List (List Char) → List Char
  | [] => []
  | line :: rest =>
    if line.isEmpty then foldLines blank (breaks + 1) rest
    else
      let starts := startsBlank line
      let between :=
        if breaks = 0 then []
        else if blank || starts then List.replicate breaks '\n'
        else if breaks = 1 then [' ']
        else List.replicate (breaks - 1) '\n'
      between ++ line ++ foldLines starts 1 rest

/-- Takes a block of lines. -/
def block (least : Nat) : Scan String := do
  let literal := (← next) = '|'
  let (chomping, explicit) ← blockSigns
  let before ← rest
  blanks
  match ← rest with
  | '#' :: s => if startsBlank before then skip (1 + (s.takeWhile (· != '\n')).length) else failure
  | _ => pure ()
  let s ← rest
  if !endsLine s then failure
  if s.isEmpty then return ""
  skip 1
  let lines := (← rest).splitOn '\n'
  let content := lines.dropWhile fun line => line.all (· == ' ')
  let indent := match explicit, content with
    | some n, _ => least - 1 + n
    | none, line :: _ => max least (max 1 (indentation line))
    | none, [] => max least 1
  match content with
  | line :: _ =>
    if line.head? = some '\t' ∨ (indentation line < indent ∧ least ≤ indentation line) then failure
  | [] => pure ()
  let taken := blockLines indent lines
  let ended := taken.length < lines.length
  skip ((taken.zip lines).foldl (fun n (_, line) => n + line.length + 1) 0 -
    (if ended then 0 else 1))
  -- the last line is empty if the text ends with a line end
  let taken := if !ended ∧ taken.getLast? = some [] then taken.dropLast else taken
  let trailing := (taken.reverse.takeWhile List.isEmpty).length
  let body := taken.take (taken.length - trailing)
  let text :=
    if literal then (body.intersperse ['\n']).flatten
    else
      let leading := (body.takeWhile List.isEmpty).length
      List.replicate leading '\n' ++ foldLines false 0 (body.drop leading)
  let tail : List Char := match chomping with
    | .strip => []
    | .clip => if body.isEmpty ∧ ended then [] else ['\n']
    | .keep =>
      if body.isEmpty ∧ !ended ∧ trailing = 0 then ['\n']
      else List.replicate (trailing + if body.isEmpty then 0 else 1) '\n'
  return String.ofList (text ++ tail)

end Scan

/-- Reads an integer in a base, with a sign. -/
def integer? (base : Nat) (s : List Char) : Option Int := do
  let (negative, digits) := ExtendedFloat.signed s
  let values ← digits.mapM Scan.hexDigit?
  if values.isEmpty ∨ values.any (base ≤ ·) then none
  else
    let n : Int := (values.foldl (fun n d => n * base + d) 0 : Nat)
    let value := if negative then -n else n
    if Word.isSigned value then some value else none

/-- The integer that a plain scalar stands for, with the mark of a base or a second sign. -/
def markedInteger? : List Char → Option Int
  | '0' :: 'x' :: s => integer? 16 s
  | '0' :: 'o' :: s => integer? 8 s
  | '+' :: s => integer? 10 s
  | _ => none

/-- The names of numbers that no setting can have. -/
def unusable : List String :=
  [".inf", ".Inf", ".INF", "+.inf", "+.Inf", "+.INF", "-.inf", "-.Inf", "-.INF", ".nan", "NaN",
    ".NAN"]

/-- The value of a plain scalar. -/
def plainValue (s : String) : Option Setting :=
  match markedInteger? s.toList with
  | some value => some (.int value)
  | none =>
    if s = "" ∨ s = "~" ∨ s = "null" then some (.nothing none)
    else if s = "true" then some (.bool true)
    else if s = "false" then some (.bool false)
    else if unusable.contains s then none
    else match integer? 10 s.toList with
      | some value => some (.int value)
      | none =>
        match ExtendedFloat.ofDecimal? s with
        | some value => some (.float value)
        | none => some (.string s)

/-- The value of a plain scalar with a tag. Tags of other kinds make texts. -/
def taggedValue (tag s : String) : Option Setting :=
  if tag = "!!bool" then
    some (if s = "true" then .bool true else if s = "false" then .bool false else .nothing none)
  else if tag = "!!int" then
    some (((integer? 10 s.toList).map .int).getD (.nothing none))
  else if tag = "!!float" then
    if unusable.contains s then none
    else some (((ExtendedFloat.ofDecimal? s).map .float).getD (.nothing none))
  else if tag = "!!null" then some (.nothing none)
  else some (.string s)

end Multibinding.Yaml
