import Multibinding.Emission.Disk
import Multibinding.Java.SourceFile

/-!
# Filers

A filer takes generated source files. It takes each class once: a second file of the same class is
refused, whatever it says. `MemoryFiler` keeps the source texts, `DirectoryFiler` writes them below
a directory.
-/

namespace Multibinding

open Java (SourceFile)

/-- Why a filer has not taken a file. -/
inductive EmitError where
  /-- It has taken one of that class. -/
  | alreadyExists (name : ClassName)
  /-- The file could not be written; `path` is where that failed. -/
  | io (path : String) (error : IoError)
deriving DecidableEq

/-- The wording of a refusal; `reason` words why a file could not be written. -/
def EmitError.message (reason : IoError → String) : EmitError → String
  | .alreadyExists name => "生成文件在本次构建中已被写出: " ++ name.canonical
  | .io path error => "生成文件写入失败: " ++ path ++ ", 原因: " ++ reason error

/-- Takes a source file, or says why not. -/
abbrev Filer (m : Type → Type) : Type :=
  SourceFile → m (Except EmitError Unit)

/-- A filer that keeps source texts. -/
structure MemoryFiler where
  /-- The classes with their source texts, in the order in which they were taken. -/
  files : List (ClassName × String)

namespace MemoryFiler

/-- The filer that has taken nothing. -/
def empty : MemoryFiler := ⟨[]⟩

/-- The source text of a class. -/
def get? (filer : MemoryFiler) (name : ClassName) : Option String :=
  filer.files.lookup name

/-- Whether a class has been taken. -/
def contains (filer : MemoryFiler) (name : ClassName) : Bool :=
  (filer.get? name).isSome

/-- The classes in the order in which they were taken. -/
def names (filer : MemoryFiler) : List ClassName :=
  filer.files.map (·.1)

/-- Takes a file. -/
def write {m : Type → Type} [Monad m] : Filer (StateT MemoryFiler m) := fun file => do
  let filer ← get
  if filer.contains file.name then return .error (.alreadyExists file.name)
  else
    set (MemoryFiler.mk (filer.files ++ [(file.name, file.source)]))
    return .ok ()

end MemoryFiler

/-- A filer that writes below a directory. -/
structure DirectoryFiler where
  /-- The directory. -/
  root : String
  /-- The classes that have been written. -/
  written : List ClassName

namespace DirectoryFiler

variable {m : Type → Type} [Monad m]

/-- The filer that has written nothing below a directory. -/
def ofRoot (root : String) : DirectoryFiler :=
  { root, written := [] }

/-- Writes a file to a path, in directories that are made as needed. -/
def writeTo (disk : Disk m) (path source : String) : m (Except EmitError Unit) := do
  match ← disk.ensureDirectories (DiskPath.parent path) with
  | .error e => return .error (.io (DiskPath.parent path) e)
  | .ok () =>
    match ← disk.writeFile path source with
    | .error e => return .error (.io path e)
    | .ok () => return .ok ()

/-- Takes a file, which counts as written only once its text is on the disk. -/
def write (disk : Disk m) : Filer (StateT DirectoryFiler m) := fun file => do
  let filer ← get
  if filer.written.contains file.name then return .error (.alreadyExists file.name)
  else
    match ← monadLift (writeTo disk (DiskPath.join filer.root file.path) file.source) with
    -- A class whose file could not be written may be handed over again.
    | .error e => return .error e
    | .ok () =>
      set { filer with written := filer.written ++ [file.name] }
      return .ok ()

end DirectoryFiler

end Multibinding
