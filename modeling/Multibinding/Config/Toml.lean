import Multibinding.Config.Basic
import Multibinding.Toml.Quoted

/-!
# Configurations in TOML

A configuration is printed with its single values first and a section each for the markers and the
framework types. What is not set is left out.
-/

namespace Multibinding

/-- A line that sets a name. -/
def settingLine (name value : String) : String :=
  name ++ " = " ++ value ++ "\n"

/-- A list of texts: on one line unless it has several items. -/
def textList : List String → String
  | [] => "[]"
  | [s] => "[" ++ Toml.quoted s ++ "]"
  | items => "[\n" ++ String.join (items.map fun s => "    " ++ Toml.quoted s ++ ",\n") ++ "]"

/-- The line of a text that may be missing. -/
def optionalLine (name : String) : Option String → String
  | some s => settingLine name (Toml.quoted s)
  | none => ""

/-- The section of a record of class names, after a blank line. -/
def namesSection {σ : Type} (title : String) (fields : List (NameField σ)) (s : σ) : String :=
  "\n[" ++ title ++ "]\n" ++
    String.join (fields.map fun f => settingLine f.name (Toml.quoted (f.get s).canonical))

/-- The TOML text of a configuration. -/
def Config.toToml (c : Config) : String :=
  settingLine "key_style" (Toml.quoted c.keyStyle.name) ++
  settingLine "string_key_types" (textList c.stringKeyTypes) ++
  settingLine "registry_mode" (Toml.quoted c.registryMode.name) ++
  optionalLine "output_dir" c.outputDir ++
  optionalLine "injection_module" (c.injectionModule.map ClassName.canonical) ++
  optionalLine "file_comment" c.fileComment ++
  namesSection "markers" MarkerNames.fields c.markers ++
  namesSection "framework" FrameworkNames.fields c.framework

end Multibinding
