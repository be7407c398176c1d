import Multibinding.Config.Basic
import Multibinding.Json.Read

/-!
# Configurations in JSON

The reader takes every field that is stated in place of its default; `Config.toJson` states all of
them.
-/

namespace Multibinding

open Json

/-- A field of a record that has a value before it is read. The state is the record with the names
of the fields that have been read. -/
def defaultedField {σ α : Type} (name : String) (set : σ → α → σ) (read : Reader α) :
    Reader.Field (σ × List String) :=
  { name
    isSet := fun s => s.2.contains name
    read := fun s n => (read n).map fun value => (set s.1 value, name :: s.2) }

/-- Reads a record of class names over its defaults. -/
def readNames {σ : Type} (expected : String) (fields : List (NameField σ)) (init : σ) :
    Reader σ := fun n => do
  let shape : Reader.Shape (σ × List String) :=
    { expected
      fields := fields.map fun f => defaultedField f.name f.set Reader.className
      required := 0 }
  return (← shape.read (init, []) n).1

/-- Reads the markers. -/
def MarkerNames.read : Reader MarkerNames :=
  readNames "struct MarkerNames" MarkerNames.fields {}

/-- Reads the framework types. -/
def FrameworkNames.read : Reader FrameworkNames :=
  readNames "struct FrameworkNames" FrameworkNames.fields {}

/-- Reads a key style. -/
def KeyStyle.read : Reader KeyStyle :=
  Reader.choice (KeyStyle.all.map fun s => .plain s.name s)

/-- Reads a registry mode. -/
def RegistryMode.read : Reader RegistryMode :=
  Reader.choice (RegistryMode.all.map fun m => .plain m.name m)

/-- The JSON form of a record of class names. -/
def namesToJson {σ : Type} (fields : List (NameField σ)) (s : σ) : Value :=
  .object (fields.map fun f => (f.name, .string (f.get s).canonical))

namespace Config

/-- The shape of a configuration. -/
def shape : Reader.Shape (Config × List String) :=
  { expected := "struct ProcessorConfig"
    fields := [
      defaultedField "markers" (fun c v => { c with markers := v }) MarkerNames.read,
      defaultedField "framework" (fun c v => { c with framework := v }) FrameworkNames.read,
      defaultedField "key_style" (fun c v => { c with keyStyle := v }) KeyStyle.read,
      defaultedField "string_key_types" (fun c v => { c with stringKeyTypes := v })
        (Reader.array Reader.string),
      defaultedField "registry_mode" (fun c v => { c with registryMode := v }) RegistryMode.read,
      defaultedField "output_dir" (fun c v => { c with outputDir := v })
        (Reader.optional (Reader.stringOf "path string")),
      defaultedField "injection_module" (fun c v => { c with injectionModule := v })
        (Reader.optional Reader.className),
      defaultedField "file_comment" (fun c v => { c with fileComment := v })
        (Reader.optional Reader.string)]
    required := 0 }

/-- Reads a configuration, whose defects are not looked for. -/
def read : Reader Config := fun n => do
  return (← shape.read ({}, []) n).1

/-- Reads the JSON text of a configuration. -/
def ofJsonText (s : String) : Except ReadError Config :=
  read.run s

/-- The JSON form of a text that may be absent. -/
def textOrNull : Option String → Value
  | some s => .string s
  | none => .null

/-- The JSON form of a configuration. -/
def toJson (c : Config) : Value :=
  .object [
    ("markers", namesToJson MarkerNames.fields c.markers),
    ("framework", namesToJson FrameworkNames.fields c.framework),
    ("key_style", .string c.keyStyle.name),
    ("string_key_types", .array (c.stringKeyTypes.map .string)),
    ("registry_mode", .string c.registryMode.name),
    ("output_dir", textOrNull c.outputDir),
    ("injection_module", textOrNull (c.injectionModule.map ClassName.canonical)),
    ("file_comment", textOrNull c.fileComment)]

end Config

end Multibinding
