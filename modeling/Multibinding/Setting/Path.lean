import Multibinding.Setting.Basic

/-!
# Paths to settings

The name of a setting at the top can be a path: `section.name` is a name in a table, and `list[2]`
an item of a list. What is missing on the way, or of another kind, is made as the path needs it.
-/

namespace Multibinding.Setting

/-- A path to a setting. -/
inductive Path where
  | top (name : String)
  | child (parent : Path) (name : String)
  | item (parent : Path) (index : Int)

namespace Path

/-- Whether a character may stand in a name of a path. -/
def isNameChar (c : Char) : Bool :=
  c.isAlphanum || c == ' ' || c == '_' || c == '-'

/-- Whether a character may surround an index. -/
def isBlank (c : Char) : Bool :=
  c == ' ' || c == '\t' || c == '\r' || c == '\n'

/-- Reads an index, up to the bracket that ends it. -/
def index? (s : List Char) : Option Int :=
  let s := ((s.dropWhile isBlank).reverse.dropWhile isBlank).reverse
  let (negative, digits) := match s with
    | '-' :: rest => (true, rest)
    | s => (false, s)
  let value : Int := ExtendedFloat.ofDigits digits
  let value := if negative then -value else value
  if digits.isEmpty || !digits.all Char.isDigit then none
  else if Word.isSigned value then some value
  else none

/-- Cuts a text before each point or opening bracket. -/
def pieces : List Char → List (List Char)
  | [] => [[]]
  | c :: rest =>
    match pieces rest with
    | [] => [[c]]
    | piece :: more =>
      if c = '.' ∨ c = '[' then [] :: (c :: piece) :: more else (c :: piece) :: more

/-- Extends a path by what a piece of the text says. -/
def extend? (path : Path) : List Char → Option Path
  | '.' :: name =>
    if name.isEmpty || !name.all isNameChar then none else some (.child path (String.ofList name))
  | '[' :: rest =>
    match rest.reverse with
    | ']' :: index => (index? index.reverse).map (.item path)
    | _ => none
  | _ => none

/-- The path that a text writes; a text that is no path is a name as a whole. -/
def parse (s : String) : Path :=
  -- The first piece has no sign in front of it.
  let path? := match pieces s.toList with
    | first :: rest =>
      if first.isEmpty || !first.all isNameChar then none
      else rest.foldlM extend? (.top (String.ofList first))
    | [] => none
  path?.getD (.top s)

/-- The position of an item. A negative index counts from the end of the list. -/
def position (index : Int) (length : Nat) : Nat :=
  if 0 ≤ index then index.toNat else length - index.natAbs

/-- Changes an item of a list, which is filled up with empty values as far as the item. -/
def changeItem (f : Setting → Setting) (index : Int) (items : List Setting) : List Setting :=
  let position := position index items.length
  let items := items ++ List.replicate (position + 1 - items.length) (.nothing none)
  items.modify position f

/-- Changes the value that a path leads to. -/
def change (f : Setting → Setting) : Path → List (String × Setting) → List (String × Setting)
  | .top name, entries =>
    Entries.insert name (f ((Entries.find? name entries).getD (.nothing none))) entries
  | .child parent name, entries =>
    parent.change (fun v =>
      let (origin, inner) := v.tableParts
      .table origin
        (Entries.insert name (f ((Entries.find? name inner).getD (.nothing none))) inner))
      entries
  | .item parent index, entries =>
    parent.change (fun v =>
      let (origin, items) := v.listParts
      .list origin (changeItem f index items)) entries

/-- Sets what a path leads to. -/
def set (value : Setting) : Path → List (String × Setting) → List (String × Setting)
  | .top name, entries => assign name value entries
  | .child parent name, entries =>
    parent.change (fun v =>
      let (origin, inner) := v.tableParts
      .table origin (assign name value inner)) entries
  | .item parent index, entries =>
    parent.change (fun v =>
      let (origin, items) := v.listParts
      .list origin (changeItem (fun _ => value) index items)) entries

end Path

/-- Sets each of a list of named values, whose names are paths. -/
def setAll (values entries : List (String × Setting)) : List (String × Setting) :=
  values.foldl (fun entries (name, value) => (Path.parse name).set value entries) entries

/-- The settings that environment variables make: those whose names start with the name of the
program, without regard to case. Two underscores lead into a table. -/
def ofEnvironment (environment : List (String × String)) : List (String × Setting) :=
  environment.filterMap fun (name, value) =>
    let name := (Text.lower name).toList
    if "contributor_".toList.isPrefixOf name then
      some (String.ofList (levels (name.drop "contributor_".length)), .string value)
    else none
where
  /-- Writes a point for every two underscores. -/
  levels : List Char → List Char
    | '_' :: '_' :: rest => '.' :: levels rest
    | c :: rest => c :: levels rest
    | [] => []

end Multibinding.Setting
