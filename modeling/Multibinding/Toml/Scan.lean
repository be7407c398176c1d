import Multibinding.Number.Extended
import Multibinding.Setting.Basic

/-!
# Scanning TOML

Scanners for the parts of a TOML text below the level of tables: blanks and line ends, keys,
strings, dates, numbers, arrays and inline tables. A scanner takes characters from the front of a
text and fails where they are not what it scans.

Loops are bounded by the length of what is left, of which every turn takes at least one character.
-/

namespace Multibinding.Toml

/-- Takes characters from the front of a text. -/
abbrev Scan (α : Type) : Type :=
  StateT (List Char) Option α

namespace Scan

/-- What is left of the text. -/
def rest : Scan (List Char) := get

/-- Takes the next character. -/
def next : Scan Char := do
  match ← get with
  | c :: s => do
    set s
    return c
  | [] => failure

/-- Takes the next character if it satisfies a predicate. -/
def satisfying (p : Char → Bool) : Scan Char := do
  let c ← next
  if p c then return c else failure

/-- Takes a character. -/
def char (c : Char) : Scan Unit := do
  if (← next) = c then return () else failure

/-- Takes a text. -/
def text (t : String) : Scan Unit := do
  let s ← get
  if t.toList.isPrefixOf s then set (s.drop t.length) else failure

/-- Takes all characters up to the first that does not satisfy a predicate. -/
def whileTrue (p : Char → Bool) : Scan (List Char) := do
  let s ← get
  set (s.dropWhile p)
  return s.takeWhile p

/-- Takes what a scanner takes, if it takes anything. -/
def optional {α : Type} (scan : Scan α) : Scan (Option α) :=
  (do return some (← scan)) <|> pure none

/-- Takes what a scanner takes for as long as it succeeds, at most `count` times. -/
def atMost {α : Type} (count : Nat) (scan : Scan α) : Scan (List α) :=
  match count with
  | 0 => pure []
  | count + 1 => do
    match ← optional scan with
    | some a => return a :: (← atMost count scan)
    | none => return []

/-- Takes what a scanner takes for as long as it succeeds. -/
def many {α : Type} (scan : Scan α) : Scan (List α) := do
  atMost (← rest).length scan

/-- Takes parts with a separator between any two of them, at least one. -/
def separated {α : Type} (separator : Scan Unit) (scan : Scan α) : Scan (List α) := do
  let first ← scan
  return first :: (← many (do
    separator
    scan))

/-- Succeeds only at the end of the text. -/
def atEnd : Scan Unit := do
  if (← rest).isEmpty then return () else failure

/-- Takes blanks within a line. -/
def blanks : Scan Unit := do
  let _ ← whileTrue fun c => c == ' ' || c == '\t'

/-- Takes a line end. -/
def lineEnd : Scan Unit :=
  text "\n" <|> text "\r\n"

/-- Whether a character may stand in a comment. -/
def isCommentChar (c : Char) : Bool :=
  c == '\t' || (' ' ≤ c && c != '\x7f')

/-- Takes a comment. -/
def comment : Scan Unit := do
  char '#'
  let _ ← whileTrue isCommentChar

/-- Takes the end of a line with what may stand before it. -/
def lineRest : Scan Unit := do
  blanks
  let _ ← optional comment
  atEnd <|> lineEnd

/-- Takes blanks, line ends and comments. -/
def gap : Scan Unit := do
  let _ ← many (lineEnd <|> (do let _ ← satisfying fun c => c == ' ' || c == '\t') <|> (do
    comment
    lineEnd))

/-- Takes a number of hexadecimal digits as the code of a character. -/
def hexChar (count : Nat) : Scan Char := do
  let digits ← atMost count (satisfying fun c => c.isDigit || ('a' ≤ c.toLower && c.toLower ≤ 'f'))
  let code := digits.foldl (fun n c =>
    n * 16 + (if c.isDigit then c.toNat - '0'.toNat else c.toLower.toNat - 'a'.toNat + 10)) 0
  if digits.length = count && code.isValidChar then return Char.ofNat code else failure

/-- Takes the part of an escape behind the backslash. -/
def escape : Scan Char := do
  match ← next with
  | 'b' => return '\x08'
  | 't' => return '\t'
  | 'n' => return '\n'
  | 'f' => return '\x0c'
  | 'r' => return '\r'
  | '"' => return '"'
  | '\\' => return '\\'
  | 'u' => hexChar 4
  | 'U' => hexChar 8
  | _ => failure

/-- Whether a character may stand as it is in a string of one line, apart from what ends it. -/
def isPlain (c : Char) : Bool :=
  isCommentChar c

/-- Takes a string between double quotes. -/
def basicString : Scan String := do
  char '"'
  let cs ← many (do
    match ← next with
    | '"' => failure
    | '\\' => escape
    | c => if isPlain c then return c else failure)
  char '"'
  return String.ofList cs

/-- Takes a string between single quotes. -/
def literalString : Scan String := do
  char '\''
  let cs ← whileTrue fun c => isPlain c && c != '\''
  char '\''
  return String.ofList cs

/-- Takes a line end as a line feed. -/
def lineFeed : Scan (List Char) := do
  lineEnd
  return ['\n']

/-- Takes a piece of a string of several lines: a run of fewer than three quotes, a line end, or
what `other` takes. -/
def longPiece (quote : Char) (other : Scan (List Char)) : Scan (List Char) := do
  match (← rest).takeWhile (· == quote) with
  | [] => lineFeed <|> other
  | run =>
    if run.length < 3 then do
      set ((← rest).drop run.length)
      return run
    else failure

/-- Takes the quotes that end a string of several lines; up to two more belong to the string. -/
def longEnd (quote : Char) : Scan (List Char) := do
  let run := ((← rest).takeWhile (· == quote)).take 5
  if run.length < 3 then failure
  else do
    set ((← rest).drop run.length)
    return run.drop 3

/-- Takes a string of several lines between three quotes at either end. A line end directly behind
the first ones does not count. -/
def longString (quote : Char) (other : Scan (List Char)) : Scan String := do
  text (String.ofList [quote, quote, quote])
  let _ ← optional lineEnd
  let pieces ← many (longPiece quote other)
  return String.ofList (pieces.flatten ++ (← longEnd quote))

/-- Takes a backslash at the end of a line, with all blanks and line ends behind it. -/
def joinedLine : Scan (List Char) := do
  char '\\'
  blanks
  lineEnd
  let _ ← many (lineEnd <|> (do let _ ← satisfying fun c => c == ' ' || c == '\t'))
  return []

/-- Takes a character that may stand as it is. -/
def plainChar : Scan (List Char) := do
  return [← satisfying fun c => isPlain c && c != '\\']

/-- Takes a string. -/
def string : Scan String :=
  longString '"' (joinedLine <|> (do
    char '\\'
    return [← escape]) <|> plainChar) <|>
  longString '\'' (do return [← satisfying isPlain]) <|>
  (do
    match (← rest).take 3 with
    -- Three quotes do not start a string of one line.
    | ['"', '"', '"'] | ['\'', '\'', '\''] => failure
    | _ => basicString <|> literalString)

/-- Takes a key without dots. -/
def simpleKey : Scan String :=
  basicString <|> literalString <|> (do
    let cs ← whileTrue fun c => c.isAlphanum || c == '_' || c == '-'
    if cs.isEmpty then failure else return String.ofList cs)

/-- Takes a key: simple keys with dots between them. -/
def key : Scan (List String) :=
  separated (char '.') (do
    blanks
    let k ← simpleKey
    blanks
    return k)

/-- Takes a number of decimal digits. -/
def digits (count : Nat) : Scan (List Char) := do
  let cs ← atMost count (satisfying Char.isDigit)
  if cs.length = count then return cs else failure

/-- Takes a number of decimal digits whose value lies in a range. -/
def digitsIn (count low high : Nat) : Scan (List Char) := do
  let cs ← digits count
  let n := ExtendedFloat.ofDigits cs
  if low ≤ n ∧ n ≤ high then return cs else failure

/-- The number of days of a month. -/
def daysOf (year month : Nat) : Nat :=
  if month = 2 then
    if (year % 4 = 0 ∧ year % 100 ≠ 0) ∨ year % 400 = 0 then 29 else 28
  else if month = 4 ∨ month = 6 ∨ month = 9 ∨ month = 11 then 30
  else 31

/-- Takes a date. -/
def date : Scan (List Char) := do
  let year ← digits 4
  char '-'
  let month ← digitsIn 2 1 12
  char '-'
  let day ← digitsIn 2 1 (daysOf (ExtendedFloat.ofDigits year) (ExtendedFloat.ofDigits month))
  return year ++ '-' :: month ++ '-' :: day

/-- Takes a fraction of a second, of which nine digits count, and zeros at its end do not. -/
def secondFraction : Scan (List Char) := do
  char '.'
  let cs ← whileTrue Char.isDigit
  if cs.isEmpty then failure
  match ((cs.take 9).reverse.dropWhile (· == '0')).reverse with
  | [] => return []
  | cs => return '.' :: cs

/-- Takes a time of day. -/
def time : Scan (List Char) := do
  let hour ← digitsIn 2 0 23
  char ':'
  let minute ← digitsIn 2 0 59
  char ':'
  let second ← digitsIn 2 0 60
  let fraction ← optional secondFraction
  return hour ++ ':' :: minute ++ ':' :: second ++ fraction.getD []

/-- Takes the distance of a local time from universal time. -/
def offset : Scan (List Char) := do
  match ← next with
  | 'Z' | 'z' => return ['Z']
  | sign =>
    if sign = '+' ∨ sign = '-' then do
      let hour ← digitsIn 2 0 23
      char ':'
      let minute ← digitsIn 2 0 59
      let none := (hour ++ minute).all (· == '0')
      return (if none then '+' else sign) :: hour ++ ':' :: minute
    else failure

/-- Takes a date, a time, or both, with the `T` between them. -/
def dateTime : Scan String :=
  (do
    let day ← date
    let moment ← optional (do
      let _ ← satisfying fun c => c == 'T' || c == 't' || c == ' '
      let moment ← time
      return 'T' :: moment ++ (← optional offset).getD [])
    return String.ofList (day ++ moment.getD [])) <|>
  (do return String.ofList (← time))

/-- Takes digits that may have single underscores between them. -/
def digitGroups (p : Char → Bool) : Scan (List Char) := do
  return (← separated (do let _ ← optional (char '_')) (satisfying p))

/-- Takes a whole number without a sign and without a zero in front. -/
def natural : Scan (List Char) := do
  match (← rest).head? with
  -- Digits behind a zero are not taken, so that what follows the number fails.
  | some '0' => return [← next]
  | _ => digitGroups Char.isDigit

/-- Takes a whole number with its sign. -/
def decimal : Scan (List Char) := do
  let sign ← optional (satisfying fun c => c == '+' || c == '-')
  return sign.toList ++ (← natural)

/-- Takes the exponent of a number. -/
def exponent : Scan (List Char) := do
  let mark ← satisfying fun c => c == 'e' || c == 'E'
  let sign ← optional (satisfying fun c => c == '+' || c == '-')
  return mark :: sign.toList ++ (← digitGroups Char.isDigit)

/-- Takes a fraction of a number. -/
def fraction : Scan (List Char) := do
  char '.'
  return '.' :: (← digitGroups Char.isDigit)

/-- Takes a floating-point number. Only a negative one may be too large. -/
def float : Scan ExtendedFloat :=
  (do
    let whole ← decimal
    let tail ← (do
      let point ← fraction
      return point ++ (← optional exponent).getD []) <|> exponent
    match ExtendedFloat.ofDecimal? (String.ofList (whole ++ tail)) with
    | some (.infinite false) | none => failure
    | some x => return x) <|>
  (do
    let sign ← optional (satisfying fun c => c == '+' || c == '-')
    (do
      text "inf"
      return .infinite (sign == some '-')) <|> (do
      text "nan"
      return .notANumber))

/-- The value of digits in a base. -/
def valueIn (base : Nat) (digits : List Char) : Nat :=
  digits.foldl (fun n c =>
    n * base + (if c.isDigit then c.toNat - '0'.toNat else c.toLower.toNat - 'a'.toNat + 10)) 0

/-- Takes an integer of 64 bits. -/
def integer : Scan Int := do
  let inBase (mark : String) (base : Nat) (p : Char → Bool) : Scan Int := do
    text mark
    return (valueIn base (← digitGroups p) : Nat)
  let value ← inBase "0x" 16 (fun c => c.isDigit || ('a' ≤ c.toLower && c.toLower ≤ 'f')) <|>
    inBase "0o" 8 (fun c => '0' ≤ c && c ≤ '7') <|>
    inBase "0b" 2 (fun c => c == '0' || c == '1') <|> (do
      match ← decimal with
      | '-' :: ds => return -(valueIn 10 ds : Int)
      | '+' :: ds => return (valueIn 10 ds : Nat)
      | ds => return (valueIn 10 ds : Nat))
  if Word.isSigned value then return value else failure

/-- Takes a value that is no array and no table. -/
def scalar : Scan Setting :=
  (do return .string (← string)) <|>
  (do
    text "true"
    return .bool true) <|>
  (do
    text "false"
    return .bool false) <|>
  -- Dates and times start like numbers, and so they are tried first.
  (do return .string (← dateTime)) <|>
  (do return .float (← float)) <|>
  (do return .int (← integer))

end Scan

end Multibinding.Toml
