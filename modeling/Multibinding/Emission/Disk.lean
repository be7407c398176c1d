import Multibinding.Text

/-!
# Disks

A disk is what files are read from and written to. It answers in some monad, so that the same
operations can be used on real files and on a tree of files in memory.
-/

namespace Multibinding

/-- Why an operation on files fails. -/
inductive IoError where
  | notFound
  /-- A file stands where a directory is needed. -/
  | notADirectory
  /-- A directory stands where a file is needed. -/
  | isADirectory
  | alreadyExists
  /-- A file is no text. -/
  | invalidData
  | permissionDenied
  | other
deriving DecidableEq

/-- What stands at a path. -/
inductive DiskEntry where
  /-- Nothing, and why not. -/
  | absent (error : IoError)
  | directory
  /-- A file with its text, if it is one. -/
  | file (text : Option String)
deriving DecidableEq

/-- The operations on files. -/
structure Disk (m : Type → Type) where
  /-- Looks at a path. -/
  look : String → m DiskEntry
  /-- Makes a directory in one that exists. -/
  makeDirectory : String → m (Except IoError Unit)
  /-- Writes a file in a directory that exists, in place of the one that is there. -/
  writeFile : String → String → m (Except IoError Unit)

namespace DiskPath

/-- Whether a path starts at the root of the file system. -/
def isAbsolute (path : String) : Bool :=
  path.toList.head? == some '/'

/-- The steps of a path. -/
def steps (path : String) : List String :=
  (Text.split '/' path).filter fun step => step != "" && step != "."

/-- The path of a list of steps. -/
def ofSteps (absolute : Bool) (steps : List String) : String :=
  (if absolute then "/" else "") ++ String.intercalate "/" steps

/-- A path below another one. A path from the root stands for itself. -/
def join (base path : String) : String :=
  if isAbsolute path || base.isEmpty then path
  else if base.toList.getLast? == some '/' then base ++ path
  else base ++ "/" ++ path

/-- The path of the directory that a path leads into. -/
def parent (path : String) : String :=
  ofSteps (isAbsolute path) (steps path).dropLast

end DiskPath

namespace Disk

variable {m : Type → Type} [Monad m]

/-- Whether a path leads to a directory. -/
def isDirectory (disk : Disk m) (path : String) : m Bool := do
  return (← disk.look path) = .directory

/-- Makes a directory, if there is none yet. -/
def ensureDirectory (disk : Disk m) (path : String) : m (Except IoError Unit) := do
  match ← disk.makeDirectory path with
  | .ok () => return .ok ()
  -- What is in the way may be the directory itself.
  | .error e => if ← disk.isDirectory path then return .ok () else return .error e

/-- Makes a directory with those that it stands in, given the steps of its path from the last one
to the first. The outer ones are only made when the inner one cannot be made without them. -/
def ensureSteps (disk : Disk m) (absolute : Bool) : List String → m (Except IoError Unit)
  | [] => return .ok ()
  | step :: outer => do
    let path := DiskPath.ofSteps absolute (step :: outer).reverse
    match ← disk.ensureDirectory path with
    | .error .notFound =>
      match ← disk.ensureSteps absolute outer with
      | .ok () => disk.ensureDirectory path
      | .error e => return .error e
    | result => return result

/-- Makes a directory with all those that it stands in. -/
def ensureDirectories (disk : Disk m) (path : String) : m (Except IoError Unit) :=
  disk.ensureSteps (DiskPath.isAbsolute path) (DiskPath.steps path).reverse

/-- Reads the text of a file. -/
def readText (disk : Disk m) (path : String) : m (Except IoError String) := do
  match ← disk.look path with
  | .absent e => return .error e
  | .directory => return .error .isADirectory
  | .file none => return .error .invalidData
  | .file (some text) => return .ok text

end Disk

end Multibinding
