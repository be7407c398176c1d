import Multibinding.Config.Settings
import Multibinding.Emission.Disk
import Multibinding.Json.Read
import Multibinding.Toml.Document
import Multibinding.Yaml.Document

/-!
# Loading configurations

A configuration is put together from its defaults, a file, and environment variables, each of which
takes precedence over what comes before it. The ending of the file's name tells its format.
-/

namespace Multibinding

/-- Why no configuration can be loaded. -/
inductive ConfigError where
  /-- Nothing stands at the path of the file. -/
  | fileNotFound (path : String)
  /-- The file cannot be read, or its format is unknown. -/
  | unreadable
  /-- The file is not written in its format, or holds no table. -/
  | notParsed
  /-- The settings are no configuration. -/
  | setting (error : SettingError)
  /-- The configuration has a defect. -/
  | invalid (defect : ConfigDefect)
deriving DecidableEq

/-- The wording of the error, as far as it is fixed. -/
def ConfigError.message : ConfigError → String
  | .fileNotFound path => "配置文件不存在: " ++ path
  | .unreadable | .notParsed => "配置解析失败: "
  | .setting error => "配置解析失败: " ++ error.message
  | .invalid defect => "配置验证失败: " ++ defect.message

namespace Json.Value

mutual

/-- The setting that a JSON value makes. Only integers of 64 bits stay integers. -/
def toSetting : Value → Setting
  | .null => .nothing none
  | .bool value => .bool value
  | .number (.int value) =>
    if Word.isSigned value then .int value
    else match Binary64.ofRatio? false value.natAbs 1 with
      | some x => .float (.finite x)
      | none => .float (.infinite false)
  | .number (.float value) => .float (.finite value)
  | .string value => .string value
  | .array items => .list none (toSettings items)
  | .object members => .table none (Entries.ofList (toEntries members))

/-- The settings that several JSON values make. -/
def toSettings : List Value → List Setting
  | [] => []
  | v :: rest => v.toSetting :: toSettings rest

/-- The settings that the members of an object make. -/
def toEntries : List (String × Value) → List (String × Setting)
  | [] => []
  | (key, v) :: rest => (key, v.toSetting) :: toEntries rest

end

end Json.Value

/-- A format of configuration files. -/
inductive ConfigFormat where
  | toml
  | json
  | yaml
deriving DecidableEq

namespace ConfigFormat

/-- The endings of file names, with the format each stands for. -/
def endings : List (String × ConfigFormat) :=
  [("toml", .toml), ("json", .json), ("yaml", .yaml), ("yml", .yaml)]

/-- The ending of a path: what follows the last point in the name of the file, unless the name
starts with that point. -/
def ending? (path : String) : Option String :=
  let name := ((DiskPath.steps path).getLast?.getD "").toList
  match name.reverse.span (· != '.') with
  -- There is no point, or the only one is in front.
  | (_, []) | (_, [_]) => none
  | (reversed, _) => some (String.ofList reversed.reverse)

/-- The format of a file. -/
def ofPath? (path : String) : Option ConfigFormat :=
  (ending? path).bind fun ending => endings.lookup ending

/-- Reads a text in a format as settings. -/
def parse (text : String) : ConfigFormat → Option (List (String × Setting))
  | .toml => Toml.parse text
  | .yaml => Yaml.parse text
  | .json =>
    match Json.Reader.run Json.Node.value text with
    | .ok (.object members) => some (Entries.ofList (Json.Value.toEntries members))
    | _ => none

end ConfigFormat

namespace Config

/-- The configuration that settings make, unless it has a defect. -/
def ofAllSettings (settings : List (String × Setting)) : Except ConfigError Config := do
  let config ← (ofSettings settings).mapError .setting
  match config.defect? with
  | some defect => throw (.invalid defect)
  | none => return config

/-- The configuration of a TOML text. -/
def ofToml (text : String) : Except ConfigError Config :=
  match Toml.parse text with
  | none => .error .notParsed
  | some values => ofAllSettings (Setting.setAll values [])

variable {m : Type → Type} [Monad m]

/-- Reads the file at the first of several paths that leads to one. -/
def readFirst (disk : Disk m) : List (String × ConfigFormat) →
    m (Except ConfigError (List (String × Setting)))
  | [] => return .error .unreadable
  | (path, format) :: others => do
    match ← disk.look path with
    -- The other paths are not tried once there is a file, whatever is wrong with it.
    | .file none => return .error .unreadable
    | .file (some text) =>
      match format.parse text with
      | none => return .error .notParsed
      | some values => return .ok (Setting.locatedEntries path values)
    | _ => readFirst disk others

/-- Reads the settings of a file. Where a directory stands at its path, files are tried whose names
have a further ending. -/
def readFile (disk : Disk m) (path : String) :
    m (Except ConfigError (List (String × Setting))) := do
  match ← disk.look path with
  | .absent _ => return .error (.fileNotFound path)
  | .directory =>
    readFirst disk
      (ConfigFormat.endings.map fun (ending, format) => (path ++ "." ++ ending, format))
  | .file _ =>
    match ConfigFormat.ofPath? path with
    | none => return .error .unreadable
    | some format => readFirst disk [(path, format)]

/-- Loads the configuration from a file, if there is one, and the environment. -/
def load (disk : Disk m) (environment : List (String × String)) (path : Option String) :
    m (Except ConfigError Config) := do
  let values ← match path with
    | none => pure (.ok [])
    | some path => readFile disk path
  return do
    -- The variables are set last, so that they take precedence.
    ofAllSettings (Setting.setAll (Setting.ofEnvironment environment)
      (Setting.setAll (← values) []))

end Config

end Multibinding
