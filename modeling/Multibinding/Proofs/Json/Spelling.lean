import Multibinding.Json.Document

/-!
# How JSON is written

The texts that the grammar of JSON makes of a value: blanks may stand around every token, a number
may have a fraction and an exponent, and a character of a string may be escaped in several ways. A
`Spelling` is one way to write a value, so that every spelling has a well-formed text.

* `Spelling.text`: the text of a spelling;
* `Spelling.node`: the value that it writes, as it stands in a text;
* `Spelling.Readable`: when the value can be read.
-/

namespace Multibinding.Json

/-- A character between tokens. -/
inductive Blank where
  | space
  | newline
  | tab
  | carriageReturn

/-- The character itself. -/
def Blank.char : Blank → Char
  | .space => ' '
  | .newline => '\n'
  | .tab => '\t'
  | .carriageReturn => '\r'

/-- The text of several blanks. -/
def blankText (blanks : List Blank) : List Char :=
  blanks.map Blank.char

/-- The character of a decimal digit. -/
def digitChar (d : Fin 10) : Char :=
  Char.ofNat ('0'.toNat + d)

/-- The digit that a character is. -/
def digitOf (c : Char) : Fin 10 :=
  Fin.ofNat 10 (c.toNat - '0'.toNat)

/-- At least one decimal digit. -/
structure Digits where
  /-- The first digit. -/
  first : Fin 10
  /-- The digits behind it. -/
  rest : List (Fin 10)

namespace Digits

/-- All digits. -/
def list (ds : Digits) : List (Fin 10) :=
  ds.first :: ds.rest

/-- The text of digits. -/
def text (ds : Digits) : List Char :=
  ds.list.map digitChar

/-- The digits as numbers. -/
def values (ds : Digits) : List Nat :=
  ds.list.map Fin.val

end Digits

/-- The exponent of a number. -/
structure ExponentSpelling where
  /-- Whether its mark is a capital. -/
  capital : Bool
  /-- Its sign, if it is written, and whether that is a minus. -/
  sign : Option Bool
  /-- Its digits. -/
  digits : Digits

/-- The text of an exponent. -/
def ExponentSpelling.text (e : ExponentSpelling) : List Char :=
  (if e.capital then 'E' else 'e') ::
    (e.sign.toList.map fun negative => if negative then '-' else '+') ++ e.digits.text

/-- How a number is written. -/
structure NumberSpelling where
  /-- Whether a minus sign stands in front. -/
  negative : Bool
  /-- The digits before the point. -/
  whole : Digits
  /-- No other digit follows a zero. -/
  noLeadingZero : whole.first = 0 → whole.rest = []
  /-- The digits after the point, if there is one. -/
  fraction : Option Digits
  /-- The exponent, if there is one. -/
  exponent : Option ExponentSpelling

namespace NumberSpelling

/-- A number with one digit before the point. -/
def scientific (first : Fin 10) (fraction : Option Digits) (exponent : Option ExponentSpelling) :
    NumberSpelling :=
  ⟨false, ⟨first, []⟩, fun _ => rfl, fraction, exponent⟩

/-- The text of a number. -/
def text (n : NumberSpelling) : List Char :=
  (if n.negative then ['-'] else []) ++ n.whole.text ++
    n.fraction.toList.flatMap (fun digits => '.' :: digits.text) ++
    n.exponent.toList.flatMap ExponentSpelling.text

/-- The literal that is written. -/
def literal (n : NumberSpelling) : NumberText where
  negative := n.negative
  whole := n.whole.values
  fraction := n.fraction.map Digits.values
  exponent := n.exponent.map fun e => (e.sign.getD false, e.digits.values)

end NumberSpelling

/-- A hexadecimal digit: one below ten, or a letter of either case. -/
inductive HexDigit where
  | digit (value : Fin 10)
  | lower (value : Fin 6)
  | upper (value : Fin 6)

namespace HexDigit

/-- The character of a digit. -/
def char : HexDigit → Char
  | .digit value => digitChar value
  | .lower value => Char.ofNat ('a'.toNat + value)
  | .upper value => Char.ofNat ('A'.toNat + value)

/-- The value of a digit. -/
def value : HexDigit → Nat
  | .digit value => value
  | .lower value | .upper value => value + 10

end HexDigit

/-- An escape of two characters. -/
inductive ShortEscape where
  | quote
  | backslash
  | slash
  | backspace
  | formFeed
  | newline
  | carriageReturn
  | tab

namespace ShortEscape

/-- The character behind the backslash. -/
def letter : ShortEscape → Char
  | .quote => '"'
  | .backslash => '\\'
  | .slash => '/'
  | .backspace => 'b'
  | .formFeed => 'f'
  | .newline => 'n'
  | .carriageReturn => 'r'
  | .tab => 't'

/-- The character that is meant. -/
def char : ShortEscape → Char
  | .quote => '"'
  | .backslash => '\\'
  | .slash => '/'
  | .backspace => '\x08'
  | .formFeed => '\x0c'
  | .newline => '\n'
  | .carriageReturn => '\r'
  | .tab => '\t'

end ShortEscape

/-- A code unit of sixteen bits, given by its four hexadecimal digits. -/
structure CodeUnit where
  /-- The highest digit. -/
  first : HexDigit
  /-- The next digit. -/
  second : HexDigit
  /-- The next digit. -/
  third : HexDigit
  /-- The lowest digit. -/
  fourth : HexDigit

namespace CodeUnit

/-- The four digits. -/
def text (u : CodeUnit) : List Char :=
  [u.first.char, u.second.char, u.third.char, u.fourth.char]

/-- The number that they write. -/
def value (u : CodeUnit) : Nat :=
  ((u.first.value * 16 + u.second.value) * 16 + u.third.value) * 16 + u.fourth.value

/-- Whether a code unit is the first half of a character beyond sixteen bits. -/
def isLeading (u : CodeUnit) : Prop :=
  0xD800 ≤ u.value ∧ u.value ≤ 0xDBFF

/-- Whether a code unit is the second half of such a character. -/
def isTrailing (u : CodeUnit) : Prop :=
  0xDC00 ≤ u.value ∧ u.value ≤ 0xDFFF

instance (u : CodeUnit) : Decidable u.isLeading :=
  inferInstanceAs (Decidable (_ ∧ _))

instance (u : CodeUnit) : Decidable u.isTrailing :=
  inferInstanceAs (Decidable (_ ∧ _))

/-- The character of two halves. -/
def pair (leading trailing : CodeUnit) : Char :=
  Char.ofNat (0x10000 + (leading.value - 0xD800) * 0x400 + (trailing.value - 0xDC00))

end CodeUnit

/-- How a character of a string is written, or half of one. -/
inductive Piece where
  /-- As it is. -/
  | plain (c : Char) (h : ' ' ≤ c ∧ c ≠ '"' ∧ c ≠ '\\')
  /-- With an escape of two characters. -/
  | short (e : ShortEscape)
  /-- With the digits of a code unit. -/
  | numeric (u : CodeUnit)

namespace Piece

/-- The text of a piece. -/
def text : Piece → List Char
  | .plain c _ => [c]
  | .short e => ['\\', e.letter]
  | .numeric u => '\\' :: 'u' :: u.text

/-- The characters that are written, given the first half of a character right before them, if there
is one; none if half of a character is without the other. -/
def decodeFrom : Option CodeUnit → List Piece → Option (List Char)
  | none, [] => some []
  | none, .plain c _ :: rest => (decodeFrom none rest).map (c :: ·)
  | none, .short e :: rest => (decodeFrom none rest).map (e.char :: ·)
  | none, .numeric u :: rest =>
    if u.isTrailing then none
    else if u.isLeading then decodeFrom (some u) rest
    else (decodeFrom none rest).map (Char.ofNat u.value :: ·)
  | some u, .numeric u' :: rest =>
    if u'.isTrailing then (decodeFrom none rest).map (u.pair u' :: ·) else none
  | some _, _ => none

/-- The key that is written. -/
def key (pieces : List Piece) : Key :=
  match decodeFrom none pieces with
  | some cs => .text (String.ofList cs)
  | none => .unpaired

/-- The text of a string. -/
def stringText (pieces : List Piece) : List Char :=
  '"' :: pieces.flatMap text ++ ['"']

end Piece

/-- The string that a key is, as a value. -/
def Key.node : Key → Node
  | .text s => .string s
  | .unpaired => .unpaired

mutual

/-- How a value is written. -/
inductive Spelling where
  | null
  | bool (value : Bool)
  | number (number : NumberSpelling)
  | string (pieces : List Piece)
  | emptyArray (inside : List Blank)
  | array (items : ItemsSpelling)
  | emptyObject (inside : List Blank)
  | object (members : MembersSpelling)

/-- How the items of an array are written, each with the blanks around it. -/
inductive ItemsSpelling where
  | last (before : List Blank) (item : Spelling) (behind : List Blank)
  | next (before : List Blank) (item : Spelling) (behind : List Blank) (rest : ItemsSpelling)

/-- How the members of an object are written, each with the blanks around its key and its value. -/
inductive MembersSpelling where
  | last (before : List Blank) (key : List Piece) (beforeColon beforeValue : List Blank)
    (value : Spelling) (behind : List Blank)
  | next (before : List Blank) (key : List Piece) (beforeColon beforeValue : List Blank)
    (value : Spelling) (behind : List Blank) (rest : MembersSpelling)

end

mutual

/-- The text of a value. -/
def Spelling.text : Spelling → List Char
  | .null => ['n', 'u', 'l', 'l']
  | .bool true => ['t', 'r', 'u', 'e']
  | .bool false => ['f', 'a', 'l', 's', 'e']
  | .number number => number.text
  | .string pieces => Piece.stringText pieces
  | .emptyArray inside => '[' :: blankText inside ++ [']']
  | .array items => '[' :: items.text ++ [']']
  | .emptyObject inside => '\x7b' :: blankText inside ++ ['\x7d']
  | .object members => '\x7b' :: members.text ++ ['\x7d']

/-- The text of items, with the commas between them. -/
def ItemsSpelling.text : ItemsSpelling → List Char
  | .last before item behind => blankText before ++ item.text ++ blankText behind
  | .next before item behind rest =>
    blankText before ++ item.text ++ blankText behind ++ ',' :: rest.text

/-- The text of members, with the commas between them. -/
def MembersSpelling.text : MembersSpelling → List Char
  | .last before key beforeColon beforeValue value behind =>
    blankText before ++ Piece.stringText key ++ blankText beforeColon ++
      ':' :: blankText beforeValue ++ value.text ++ blankText behind
  | .next before key beforeColon beforeValue value behind rest =>
    blankText before ++ Piece.stringText key ++ blankText beforeColon ++
      ':' :: blankText beforeValue ++ value.text ++ blankText behind ++ ',' :: rest.text

end

mutual

/-- The value that is written, as it stands in a text. -/
def Spelling.node : Spelling → Node
  | .null => .null
  | .bool value => .bool value
  | .number number => .number number.literal
  | .string pieces => (Piece.key pieces).node
  | .emptyArray _ => .array [] none
  | .array items => .array items.nodes none
  | .emptyObject _ => .object [] .closed
  | .object members => .object members.nodes .closed

/-- The items that are written. -/
def ItemsSpelling.nodes : ItemsSpelling → List Node
  | .last _ item _ => [item.node]
  | .next _ item _ rest => item.node :: rest.nodes

/-- The members that are written. -/
def MembersSpelling.nodes : MembersSpelling → List (Key × Node)
  | .last _ key _ _ value _ => [(Piece.key key, value.node)]
  | .next _ key _ _ value _ rest => (Piece.key key, value.node) :: rest.nodes

end

mutual

/-- The numbers in a value. -/
def Spelling.numbers : Spelling → List NumberSpelling
  | .number number => [number]
  | .array items => items.numbers
  | .object members => members.numbers
  | .null | .bool _ | .string _ | .emptyArray _ | .emptyObject _ => []

/-- The numbers in items. -/
def ItemsSpelling.numbers : ItemsSpelling → List NumberSpelling
  | .last _ item _ => item.numbers
  | .next _ item _ rest => item.numbers ++ rest.numbers

/-- The numbers in members. -/
def MembersSpelling.numbers : MembersSpelling → List NumberSpelling
  | .last _ _ _ _ value _ => value.numbers
  | .next _ _ _ _ value _ rest => value.numbers ++ rest.numbers

end

mutual

/-- The strings in a value, with those that are keys. -/
def Spelling.strings : Spelling → List (List Piece)
  | .string pieces => [pieces]
  | .array items => items.strings
  | .object members => members.strings
  | .null | .bool _ | .number _ | .emptyArray _ | .emptyObject _ => []

/-- The strings in items. -/
def ItemsSpelling.strings : ItemsSpelling → List (List Piece)
  | .last _ item _ => item.strings
  | .next _ item _ rest => item.strings ++ rest.strings

/-- The strings in members. -/
def MembersSpelling.strings : MembersSpelling → List (List Piece)
  | .last _ key _ _ value _ => key :: value.strings
  | .next _ key _ _ value _ rest => key :: value.strings ++ rest.strings

end

/-- No number is taken for one beyond the largest one, and no string has half of a character without
the other half. -/
structure Spelling.Readable (s : Spelling) : Prop where
  numbers : ∀ n ∈ s.numbers, n.literal.value?.isSome
  strings : ∀ pieces ∈ s.strings, (Piece.decodeFrom none pieces).isSome

end Multibinding.Json
