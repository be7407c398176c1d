import Multibinding.Toml.Scan

/-!
# TOML documents

A document is a list of lines, each of which starts a table or sets a key in the table started
last. Tables are built up line by line: a table may be started once, and one that came about by the
way, as part of a longer name, may still be started, unless a dotted key made it.
-/

namespace Multibinding.Toml

/-- How a table came about. -/
inductive TableKind where
  /-- It was started by a line of its own. -/
  | started
  /-- It stands on the way to a table that was started. -/
  | implied
  /-- It stands on the way to a value with a dotted key. -/
  | dotted
deriving DecidableEq

/-- What a key stands for while the document is read. -/
inductive Item where
  | value (value : Setting)
  | table (kind : TableKind) (entries : List (String × Item))
  /-- The tables of a list, the last one first. -/
  | tables (last : List (String × Item)) (before : List (List (String × Item)))

namespace Item

/-- The entries with a change at a key. -/
def replace (key : String) (item : Item) : List (String × Item) → List (String × Item)
  | [] => [(key, item)]
  | (k, i) :: rest => if k = key then (key, item) :: rest else (k, i) :: replace key item rest

/-- Changes the entries that a key leads to through a chain of tables. Tables that are missing are
made. The entries reached are given with the kind of their table. -/
def descend (dotted : Bool) (kind : TableKind)
    (f : TableKind → List (String × Item) → Option (List (String × Item))) :
    List String → List (String × Item) → Option (List (String × Item))
  | [], entries => f kind entries
  | key :: path, entries =>
    match entries.lookup key with
    | none => do
      let kind := if dotted then .dotted else .implied
      return replace key (.table kind (← descend dotted kind f path [])) entries
    | some (.value _) => none
    | some (.table kind inner) =>
      if dotted ∧ kind = .started then none
      else do return replace key (.table kind (← descend dotted kind f path inner)) entries
    -- The way leads into the last table of the list.
    | some (.tables last before) => do
      return replace key (.tables (← descend dotted .started f path last) before) entries

/-- Sets a key of the table reached by its dotted parts. Only a table that dotted keys made takes
further dotted keys. -/
def setKey (key : List String) (v : Setting) (entries : List (String × Item)) :
    Option (List (String × Item)) :=
  match key.reverse with
  | [] => none
  | last :: path =>
    descend true .started (fun kind entries =>
      -- A table with a line of its own, or on the way to one, is closed to dotted keys.
      if kind ≠ .dotted ∧ !path.isEmpty then none
      else if (entries.lookup last).isSome then none
      else some (replace last (.value v) entries)) path.reverse entries

/-- Starts a table. -/
def startTable (key : List String) (entries : List (String × Item)) :
    Option (List (String × Item)) :=
  match key.reverse with
  | [] => none
  | last :: path =>
    descend false .started (fun _ entries =>
      match entries.lookup last with
      | none => some (replace last (.table .started []) entries)
      | some (.table .implied inner) => some (replace last (.table .started inner) entries)
      | some _ => none) path.reverse entries

/-- Starts a further table of a list. -/
def startItem (key : List String) (entries : List (String × Item)) :
    Option (List (String × Item)) :=
  match key.reverse with
  | [] => none
  | last :: path =>
    descend false .started (fun _ entries =>
      match entries.lookup last with
      | none => some (replace last (.tables [] []) entries)
      | some (.tables newest before) => some (replace last (.tables [] (newest :: before)) entries)
      | some _ => none) path.reverse entries

/-- Sets a key in the table that was started last. -/
def setIn (current key : List String) (v : Setting) (entries : List (String × Item)) :
    Option (List (String × Item)) :=
  descend false .started (fun _ entries => setKey key v entries) current entries

mutual

/-- The setting that an item makes. -/
def setting : Item → Setting
  | .value v => v
  | .table _ entries => .table none (Entries.ofList (settings entries))
  | .tables last before =>
    .list none (tableSettings before ++ [.table none (Entries.ofList (settings last))])

/-- The settings that entries make. -/
def settings : List (String × Item) → List (String × Setting)
  | [] => []
  | (key, item) :: rest => (key, item.setting) :: settings rest

/-- The settings that the tables of a list make, given the last one first. -/
def tableSettings : List (List (String × Item)) → List Setting
  | [] => []
  | entries :: rest => tableSettings rest ++ [.table none (Entries.ofList (settings entries))]

end

end Item

namespace Scan

/-- Takes an array of values. -/
def array (value : Scan Setting) : Scan Setting := do
  char '['
  gap
  let items ← optional (do
    let items ← separated (char ',') (do
      gap
      let v ← value
      gap
      return v)
    let _ ← optional (char ',')
    return items)
  gap
  char ']'
  return .list none (items.getD [])

/-- Takes a table of values on one line. -/
def inlineTable (value : Scan Setting) : Scan Setting := do
  char '\x7b'
  blanks
  let pairs ← optional (separated (char ',') (do
    let k ← key
    char '='
    blanks
    let v ← value
    blanks
    return (k, v)))
  char '\x7d'
  match (pairs.getD []).foldlM (fun entries (k, v) => Item.setKey k v entries) [] with
  | some entries => return .table none (Entries.ofList (Item.settings entries))
  | none => failure

/-- Takes a value in which arrays and tables are nested at most so deep. -/
def value : Nat → Scan Setting
  | 0 => scalar
  | levels + 1 => array (value levels) <|> inlineTable (value levels) <|> scalar

/-- How deep arrays and tables on one line may be nested. -/
def maxLevels : Nat := 79

/-- A line of a document. -/
inductive Line where
  | blank
  | table (key : List String)
  | item (key : List String)
  | pair (key : List String) (value : Setting)

/-- Takes a line with its end. -/
def line : Scan Line := do
  blanks
  match (← rest) with
  | [] => failure
  | '[' :: '[' :: _ =>
    text "[["
    let k ← key
    text "]]"
    lineRest
    return .item k
  | '[' :: _ =>
    char '['
    let k ← key
    char ']'
    lineRest
    return .table k
  | c :: _ =>
    if c = '#' ∨ c = '\n' ∨ c = '\r' then
      lineRest
      return .blank
    else
      let k ← key
      char '='
      blanks
      let v ← value maxLevels
      lineRest
      return .pair k v

/-- Takes a whole document. -/
def document : Scan (List Line) := do
  let _ ← optional (char '\ufeff')
  let lines ← many line
  blanks
  atEnd
  return lines

end Scan

/-- Adds a line to the tables read so far; the key of the table started last goes along. -/
def addLine : List String × List (String × Item) → Scan.Line →
    Option (List String × List (String × Item))
  | state, .blank => some state
  | (_, entries), .table key => (Item.startTable key entries).map (key, ·)
  | (_, entries), .item key => (Item.startItem key entries).map (key, ·)
  | (current, entries), .pair key value => (Item.setIn current key value entries).map (current, ·)

/-- Reads a TOML text as settings. -/
def parse (s : String) : Option (List (String × Setting)) := do
  let (lines, _) ← Scan.document.run s.toList
  let (_, entries) ← lines.foldlM addLine ([], [])
  return Entries.ofList (Item.settings entries)

end Multibinding.Toml
