import Multibinding.Declaration.Json
import Multibinding.Emission.Disk

/-!
# Loading an index from a file
-/

namespace Multibinding

/-- Why no index can be loaded from a file. -/
inductive IndexFileError where
  /-- The file cannot be read. -/
  | unreadable (error : IoError)
  /-- The text of the file is no index. -/
  | text (error : IndexError)

/-- Loads an index from a file. -/
def DeclarationIndex.ofFile {m : Type → Type} [Monad m] (disk : Disk m) (path : String) :
    m (Except IndexFileError DeclarationIndex) := do
  match ← disk.readText path with
  | .error e => return .error (.unreadable e)
  | .ok text => return (ofJsonText text).mapError .text

end Multibinding
