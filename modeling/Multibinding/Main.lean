import Multibinding.CommandLine.Run

/-!
# The program

The command line on real files, standard output, and the environment of the process.
-/

namespace Multibinding

/-- The reason of a failed operation on files. -/
def IoError.ofError : IO.Error → IoError
  | .noFileOrDirectory .. | .noSuchThing .. => .notFound
  | .alreadyExists .. => .alreadyExists
  | .inappropriateType .. => .notADirectory
  | .permissionDenied .. => .permissionDenied
  | _ => .other

/-- Runs an operation on files and keeps the reason if it fails. -/
def attempt (act : IO Unit) : IO (Except IoError Unit) := do
  try
    act
    return .ok ()
  catch e => return .error (.ofError e)

/-- What stands at a path of the file system. -/
def lookAt (path : String) : IO DiskEntry := do
  if ← (IO.FS.DirEntry.mk path "").root.isDir then return .directory
  try
    let bytes ← IO.FS.readBinFile path
    return .file (String.fromUTF8? bytes)
  catch e => return .absent (.ofError e)

/-- The files of the file system. -/
def realDisk : Disk IO :=
  { look := lookAt
    makeDirectory := fun path => attempt (IO.FS.createDir path)
    writeFile := fun path text => attempt (IO.FS.writeFile path text) }

/-- The environment variables of the process, as the system lists them. -/
def environment : IO (List (String × String)) := do
  try
    -- Each variable ends with a zero character.
    let bytes ← IO.FS.readBinFile "/proc/self/environ"
    let text := (String.fromUTF8? bytes).getD ""
    return (Text.split '\x00' text).filterMap fun line =>
      match line.toList.span (· != '=') with
      | (name, _ :: value) => some (String.ofList name, String.ofList value)
      | (_, []) => none
  catch _ => return []

end Multibinding

/-- Runs the command line. -/
def main (arguments : List String) : IO UInt32 := do
  let result ← Multibinding.CommandLine.answer Multibinding.realDisk
    (← Multibinding.environment) arguments
  IO.print result.output
  return result.exitCode.toUInt32
