/-!
# Entries sorted by key

A map from texts is kept as the list of its entries in ascending order of their keys, so that equal
maps are equal lists.
-/

namespace Multibinding.Entries

variable {α : Type}

/-- Sets the value of a key, in place of the one it has. -/
def insert (key : String) (value : α) : List (String × α) → List (String × α)
  | [] => [(key, value)]
  | (k, v) :: rest =>
    if key < k then (key, value) :: (k, v) :: rest
    else if key = k then (key, value) :: rest
    else (k, v) :: insert key value rest

/-- The entries of a list of assignments, of which the last one of a key counts. -/
def ofList (assignments : List (String × α)) : List (String × α) :=
  assignments.foldl (fun entries (key, value) => insert key value entries) []

/-- The value of a key. -/
def find? (key : String) (entries : List (String × α)) : Option α :=
  entries.lookup key

end Multibinding.Entries
