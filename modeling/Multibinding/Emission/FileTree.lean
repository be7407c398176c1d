import Multibinding.Emission.Disk

/-!
# Trees of files

A disk in memory: the directories and files below a root, each under the steps of its path. A path
is followed step by step, so that one that leads back out of a directory needs that directory.
-/

namespace Multibinding

/-- The directories and files below a root that is a directory itself. -/
structure FileTree where
  /-- What stands at a path, in the order in which it was made. -/
  entries : List (List String × DiskEntry)

namespace FileTree

/-- The tree in which nothing stands below the root. -/
def empty : FileTree := ⟨[]⟩

/-- What stands at a place. -/
def entryAt (tree : FileTree) : List String → DiskEntry
  | [] => .directory
  | place => (tree.entries.lookup place).getD (.absent .notFound)

/-- The place that the steps of a path lead to, from the place of a directory on. The last step
need not lead to anything. -/
def follow (tree : FileTree) (place : List String) : List String → Except IoError (List String)
  | [] => .ok place
  | step :: rest =>
    match tree.entryAt place with
    -- From the root no step leads further back.
    | .directory => tree.follow (if step = ".." then place.dropLast else place ++ [step]) rest
    | .absent e => .error e
    | .file _ => .error .notADirectory

/-- The place that a path leads to. -/
def place (tree : FileTree) (path : String) : Except IoError (List String) :=
  tree.follow [] (DiskPath.steps path)

/-- What stands at a path. -/
def look (tree : FileTree) (path : String) : DiskEntry :=
  match tree.place path with
  | .ok place => tree.entryAt place
  | .error e => .absent e

/-- The tree with an entry at a place, in place of the one that stands there. -/
def put (tree : FileTree) (place : List String) (entry : DiskEntry) : FileTree :=
  if (tree.entries.lookup place).isSome then
    ⟨tree.entries.map fun (p, e) => (p, if p = place then entry else e)⟩
  else ⟨tree.entries ++ [(place, entry)]⟩

/-- Makes a directory in one that exists. -/
def makeDirectory (tree : FileTree) (path : String) : Except IoError FileTree := do
  let place ← tree.place path
  match tree.entryAt place with
  | .absent _ => return tree.put place .directory
  | _ => throw .alreadyExists

/-- Writes a file in a directory that exists. -/
def writeFile (tree : FileTree) (path text : String) : Except IoError FileTree := do
  let place ← tree.place path
  match tree.entryAt place with
  | .directory => throw .isADirectory
  | _ => return tree.put place (.file (some text))

/-- Turns an operation that gives a new tree into one that changes the tree. -/
def changing (f : FileTree → Except IoError FileTree) : StateM FileTree (Except IoError Unit) := do
  match f (← get) with
  | .ok tree =>
    set tree
    return .ok ()
  | .error e => return .error e

/-- The tree as a disk. -/
def disk : Disk (StateM FileTree) :=
  { look := fun path => do return (← get).look path
    makeDirectory := fun path => changing (·.makeDirectory path)
    writeFile := fun path text => changing (·.writeFile path text) }

/-- Puts an entry at a path together with the directories that it stands in. -/
def plant (tree : FileTree) (path : String) (entry : DiskEntry) : FileTree :=
  let steps := DiskPath.steps path
  let outer := (List.range steps.length).filterMap fun n =>
    if n = 0 then none else some (steps.take n)
  let tree := outer.foldl (fun tree place =>
    if tree.entryAt place = .directory then tree else tree.put place .directory) tree
  tree.put steps entry

/-- The files with their texts, by their paths. -/
def files (tree : FileTree) : List (String × Option String) :=
  tree.entries.filterMap fun (place, entry) =>
    match entry with
    | .file text => some (DiskPath.ofSteps false place, text)
    | _ => none

end FileTree

end Multibinding
