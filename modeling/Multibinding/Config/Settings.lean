import Multibinding.Config.Basic
import Multibinding.Setting.Path
import Multibinding.Text.Quoted

/-!
# Configurations from settings

A configuration is read from the table of all settings. Settings that it has no field for are
ignored. Where a text is wanted, every single value will do, and is taken by its own text.
-/

namespace Multibinding

/-- Why settings are no configuration. -/
inductive SettingError where
  /-- A single value is wanted at a key. -/
  | notText (found : String) (key : String) (origin : Option String)
  /-- Something else is wanted. -/
  | mismatch (found : String) (expected : String)
  | unknownVariant (choice : String) (name : String)
  /-- A choice is neither a text nor a table of one entry. -/
  | noVariant (choice : String)
  | invalidName (error : NameError)
deriving DecidableEq

/-- The wording of the error. -/
def SettingError.message : SettingError → String
  | .notText found key origin =>
    s!"invalid type: {found}, expected a string for key `{key}`" ++
      (match origin with | some file => " in " ++ file | none => "")
  | .mismatch found expected => s!"invalid type: {found}, expected {expected}"
  | .unknownVariant choice name => s!"enum {choice} does not have variant constructor {name}"
  | .noVariant choice => s!"value of enum {choice} should be represented by " ++
      "either string or table with exactly one key"
  | .invalidName error => error.message

namespace Setting

/-- The description of a value. -/
def found : Setting → String
  | .nothing _ => "unit value"
  | .bool value => s!"boolean `{value}`"
  | .int value => s!"integer `{value}`"
  | .float value => s!"floating point `{value.pointedText}`"
  | .string value => "string " ++ Text.quoted value
  | .list .. => "sequence"
  | .table .. => "map"

/-- Where a value comes from. -/
def origin? : Setting → Option String
  | .nothing origin | .list origin _ | .table origin _ => origin
  | .bool _ | .int _ | .float _ | .string _ => none

/-- Reads a text at a key. -/
def readText (key : String) : Setting → Except SettingError String
  | .bool value => .ok (toString value)
  | .int value => .ok (toString value)
  | .float value => .ok value.text
  | .string value => .ok value
  | v => .error (.notText v.found key v.origin?)

/-- Reads a class name at a key. -/
def readClassName (key : String) (v : Setting) : Except SettingError ClassName := do
  (ClassName.parse (← v.readText key)).mapError .invalidName

/-- Reads a value that may be missing. -/
def readOptional {α : Type} (read : Setting → Except SettingError α) :
    Setting → Except SettingError (Option α)
  | .nothing _ => .ok none
  | v => (read v).map some

/-- The key of an item of a list. -/
def itemKey (key : String) (index : Nat) : String :=
  s!"{key}[{index}]"

/-- Reads a list of texts at a key. -/
def readTexts (key : String) : Setting → Except SettingError (List String)
  | .list _ items => items.zipIdx.mapM fun (v, i) => v.readText (itemKey key i)
  | v => .error (.mismatch v.found "a sequence")

/-- Reads a choice by the names of its alternatives, without regard to case. A table names it by
its only entry. -/
def readChoice {α : Type} (choice : String) (known : List (String × α)) (v : Setting) :
    Except SettingError α := do
  let name ← match v with
    | .string name => pure name
    | .table _ [(name, _)] => pure name
    | _ => throw (.noVariant choice)
  match known.find? (·.1 == Text.lower name) with
  | some (_, value) => return value
  | none => throw (.unknownVariant choice name)

/-- Reads a record of class names at a key, over its defaults: from a table by the names of the
fields, or from a list by their order. -/
def readNames {σ : Type} (expected key : String) (fields : List (NameField σ)) (init : σ) :
    Setting → Except SettingError σ
  | .table _ entries => fields.foldlM (fun s f =>
      match Entries.find? f.name entries with
      | some v => do return f.set s (← v.readClassName (key ++ "." ++ f.name))
      | none => return s) init
  -- Fields that the list does not reach keep their defaults, and further items are ignored.
  | .list _ items => (fields.zip items.zipIdx).foldlM (fun s (f, v, i) => do
      return f.set s (← v.readClassName (itemKey key i))) init
  | v => .error (.mismatch v.found expected)

end Setting

namespace Config

/-- Reads a field of a configuration from a table of settings, if it is there. -/
def readField {α : Type} (entries : List (String × Setting)) (name : String)
    (read : Setting → Except SettingError α) (set : Config → α → Config) (c : Config) :
    Except SettingError Config :=
  match Entries.find? name entries with
  | some v => (read v).map (set c)
  | none => .ok c

/-- The configuration that settings make; its defects are not looked for. -/
def ofSettings (entries : List (String × Setting)) : Except SettingError Config := do
  let c : Config := {}
  let c ← readField entries "markers"
    (Setting.readNames "struct MarkerNames" "markers" MarkerNames.fields {})
    (fun c v => { c with markers := v }) c
  let c ← readField entries "framework"
    (Setting.readNames "struct FrameworkNames" "framework" FrameworkNames.fields {})
    (fun c v => { c with framework := v }) c
  let c ← readField entries "key_style"
    (Setting.readChoice "KeyStyle" (KeyStyle.all.map fun s => (s.name, s)))
    (fun c v => { c with keyStyle := v }) c
  let c ← readField entries "string_key_types" (Setting.readTexts "string_key_types")
    (fun c v => { c with stringKeyTypes := v }) c
  let c ← readField entries "registry_mode"
    (Setting.readChoice "RegistryMode" (RegistryMode.all.map fun m => (m.name, m)))
    (fun c v => { c with registryMode := v }) c
  let c ← readField entries "output_dir" (Setting.readOptional (Setting.readText "output_dir"))
    (fun c v => { c with outputDir := v }) c
  let c ← readField entries "injection_module"
    (Setting.readOptional (Setting.readClassName "injection_module"))
    (fun c v => { c with injectionModule := v }) c
  readField entries "file_comment" (Setting.readOptional (Setting.readText "file_comment"))
    (fun c v => { c with fileComment := v }) c

end Config

end Multibinding
