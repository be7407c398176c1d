import Multibinding.Entries
import Multibinding.Number.Extended
import Multibinding.Text

/-!
# Settings

Settings are what a configuration is put together from: values of a few kinds under names, taken
from a file and from the environment. Names count without regard to case, and a later value takes
the place of an earlier one, except that tables are merged.

A value remembers the file it comes from as far as a message may name it. A merged table comes from
nowhere.
-/

namespace Multibinding

/-- A value of a setting. -/
inductive Setting where
  /-- No value. -/
  | nothing (origin : Option String)
  | bool (value : Bool)
  | int (value : Int)
  | float (value : ExtendedFloat)
  | string (value : String)
  | list (origin : Option String) (items : List Setting)
  /-- Values under names, sorted by name. -/
  | table (origin : Option String) (entries : List (String × Setting))

namespace Setting

mutual

/-- The value as one that comes from a file. -/
def located (file : String) : Setting → Setting
  | .nothing _ => .nothing (some file)
  | .list _ items => .list (some file) (locatedItems file items)
  | .table _ entries => .table (some file) (locatedEntries file entries)
  | .bool value => .bool value
  | .int value => .int value
  | .float value => .float value
  | .string value => .string value

/-- Several values as ones that come from a file. -/
def locatedItems (file : String) : List Setting → List Setting
  | [] => []
  | v :: rest => v.located file :: locatedItems file rest

/-- The values under names as ones that come from a file. -/
def locatedEntries (file : String) : List (String × Setting) → List (String × Setting)
  | [] => []
  | (name, v) :: rest => (name, v.located file) :: locatedEntries file rest

end

/-- The table to add to, which is an empty one in place of any other value. -/
def tableParts : Setting → Option String × List (String × Setting)
  | .table origin entries => (origin, entries)
  | _ => (none, [])

/-- The list to add to, which is an empty one in place of any other value. -/
def listParts : Setting → Option String × List Setting
  | .list origin items => (origin, items)
  | _ => (none, [])

mutual

/-- Sets a name in a table to a value. A table is merged into the value that is there. -/
def assign (name : String) : Setting → List (String × Setting) → List (String × Setting)
  | .table _ added, entries =>
    let key := Text.lower name
    -- Where nothing is, the entries are merged into an empty table.
    Entries.insert key (mergeInto added ((Entries.find? key entries).getD (.table none []))) entries
  | v, entries => Entries.insert (Text.lower name) v entries

/-- Merges entries into a value, which becomes a table unless there is nothing to merge. -/
def mergeInto : List (String × Setting) → Setting → Setting
  | [], target => target
  | (name, v) :: rest, target =>
    let (origin, entries) := target.tableParts
    mergeInto rest (.table origin (assign name v entries))

end

end Setting

end Multibinding
