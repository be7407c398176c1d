import Multibinding.Entries
import Multibinding.Json.Document

/-!
# JSON values

A value without reference to the text it comes from, and its two written forms: on one line, and
with one member or item a line. The members of an object keep their order and may repeat a key
until `Value.canonical` sorts them.
-/

namespace Multibinding.Json

/-- A JSON value. -/
inductive Value where
  | null
  | bool (value : Bool)
  | number (value : Number)
  | string (value : String)
  | array (items : List Value)
  | object (members : List (String × Value))

namespace Value

mutual

/-- Decides whether two values are the same. -/
def decEq : (v w : Value) → Decidable (v = w)
  | .null, .null => .isTrue rfl
  | .bool a, .bool b => decidable_of_iff (a = b) (by simp)
  | .number a, .number b => decidable_of_iff (a = b) (by simp)
  | .string a, .string b => decidable_of_iff (a = b) (by simp)
  | .array a, .array b =>
    have := decEqItems a b
    decidable_of_iff (a = b) (by simp)
  | .object a, .object b =>
    have := decEqMembers a b
    decidable_of_iff (a = b) (by simp)
  | .null, .bool _ | .null, .number _ | .null, .string _ | .null, .array _ | .null, .object _
  | .bool _, .null | .bool _, .number _ | .bool _, .string _ | .bool _, .array _
  | .bool _, .object _ | .number _, .null | .number _, .bool _ | .number _, .string _
  | .number _, .array _ | .number _, .object _ | .string _, .null | .string _, .bool _
  | .string _, .number _ | .string _, .array _ | .string _, .object _ | .array _, .null
  | .array _, .bool _ | .array _, .number _ | .array _, .string _ | .array _, .object _
  | .object _, .null | .object _, .bool _ | .object _, .number _ | .object _, .string _
  | .object _, .array _ => .isFalse (by simp)

/-- Decides whether two lists of items are the same. -/
def decEqItems : (v w : List Value) → Decidable (v = w)
  | [], [] => .isTrue rfl
  | a :: v, b :: w =>
    have := decEq a b
    have := decEqItems v w
    decidable_of_iff (a = b ∧ v = w) (by simp)
  | [], _ :: _ | _ :: _, [] => .isFalse (by simp)

/-- Decides whether two lists of members are the same. -/
def decEqMembers : (v w : List (String × Value)) → Decidable (v = w)
  | [], [] => .isTrue rfl
  | (k, a) :: v, (l, b) :: w =>
    have := decEq a b
    have := decEqMembers v w
    decidable_of_iff ((k = l ∧ a = b) ∧ v = w) (by simp)
  | [], _ :: _ | _ :: _, [] => .isFalse (by simp)

end

instance : DecidableEq Value := decEq

mutual

/-- The value with the members of each object sorted by key; of a repeated key the last member
counts. -/
def canonical : Value → Value
  | .array items => .array (canonicalItems items)
  | .object members => .object (Entries.ofList (canonicalMembers members))
  | .null => .null
  | .bool value => .bool value
  | .number value => .number value
  | .string value => .string value

/-- The items, each sorted. -/
def canonicalItems : List Value → List Value
  | [] => []
  | v :: rest => v.canonical :: canonicalItems rest

/-- The members in their order, the value of each sorted. -/
def canonicalMembers : List (String × Value) → List (String × Value)
  | [] => []
  | (key, v) :: rest => (key, v.canonical) :: canonicalMembers rest

end

/-- The digits of a control character's escape. -/
def escapeDigits (c : Char) : List Char :=
  [Nat.digitChar (c.toNat / 16), Nat.digitChar (c.toNat % 16)]

/-- A character inside a string. -/
def escaped (c : Char) : List Char :=
  match c with
  | '"' => ['\\', '"']
  | '\\' => ['\\', '\\']
  | '\x08' => ['\\', 'b']
  | '\x0c' => ['\\', 'f']
  | '\n' => ['\\', 'n']
  | '\r' => ['\\', 'r']
  | '\t' => ['\\', 't']
  | c => if c < ' ' then '\\' :: 'u' :: '0' :: '0' :: escapeDigits c else [c]

/-- A string between its quotes. -/
def stringText (s : String) : List Char :=
  '"' :: s.toList.flatMap escaped ++ ['"']

/-- The word of a truth value. -/
def boolText (b : Bool) : List Char :=
  if b then "true".toList else "false".toList

mutual

/-- The characters of a value on one line. -/
def compactText : Value → List Char
  | .null => "null".toList
  | .bool value => boolText value
  | .number value => value.text.toList
  | .string value => stringText value
  | .array items => '[' :: compactItems items ++ [']']
  | .object members => '\x7b' :: compactMembers members ++ ['\x7d']

/-- The items on one line. -/
def compactItems : List Value → List Char
  | [] => []
  | [v] => v.compactText
  | v :: w :: rest => v.compactText ++ ',' :: compactItems (w :: rest)

/-- The members on one line. -/
def compactMembers : List (String × Value) → List Char
  | [] => []
  | [(key, v)] => stringText key ++ ':' :: v.compactText
  | (key, v) :: w :: rest =>
    stringText key ++ ':' :: v.compactText ++ ',' :: compactMembers (w :: rest)

end

/-- The value on one line. -/
def compact (v : Value) : String :=
  String.ofList v.compactText

/-- The start of a line at a depth. -/
def newline (depth : Nat) : List Char :=
  '\n' :: List.replicate (2 * depth) ' '

mutual

/-- The characters of a value inside `depth` arrays and objects, with one item or member a line. -/
def prettyText (depth : Nat) : Value → List Char
  | .array [] => ['[', ']']
  | .array items => '[' :: prettyItems (depth + 1) items ++ newline depth ++ [']']
  | .object [] => ['\x7b', '\x7d']
  | .object members =>
    '\x7b' :: prettyMembers (depth + 1) members ++ newline depth ++ ['\x7d']
  | .null => "null".toList
  | .bool value => boolText value
  | .number value => value.text.toList
  | .string value => stringText value

/-- The items, each on a line of its own. -/
def prettyItems (depth : Nat) : List Value → List Char
  | [] => []
  | [v] => newline depth ++ v.prettyText depth
  | v :: w :: rest => newline depth ++ v.prettyText depth ++ ',' :: prettyItems depth (w :: rest)

/-- The members, each on a line of its own. -/
def prettyMembers (depth : Nat) : List (String × Value) → List Char
  | [] => []
  | [(key, v)] => newline depth ++ stringText key ++ ':' :: ' ' :: v.prettyText depth
  | (key, v) :: w :: rest =>
    newline depth ++ stringText key ++ ':' :: ' ' :: v.prettyText depth ++
      ',' :: prettyMembers depth (w :: rest)

end

/-- The value with one item or member a line, indented by two blanks a level. -/
def pretty (v : Value) : String :=
  String.ofList (v.prettyText 0)

end Value

end Multibinding.Json
