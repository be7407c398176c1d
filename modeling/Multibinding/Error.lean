import Multibinding.Config.Load
import Multibinding.Declaration.Index
import Multibinding.Emission.Filer

/-!
# Errors of all parts

The errors of the single parts as one, whose wording says which part it comes from.
-/

namespace Multibinding

/-- The wording of an error on files. -/
def IoError.message : IoError → String
  | .notFound => "No such file or directory (os error 2)"
  | .notADirectory => "Not a directory (os error 20)"
  | .isADirectory => "Is a directory (os error 21)"
  | .alreadyExists => "File exists (os error 17)"
  | .invalidData => "stream did not contain valid UTF-8"
  | .permissionDenied => "Permission denied (os error 13)"
  | .other => "other error"

/-- An error of any part. -/
inductive AnyError where
  | name (error : NameError)
  | config (error : ConfigError)
  | emit (error : EmitError)
  | index (error : DuplicateType)

/-- The wording of an error. -/
def AnyError.message : AnyError → String
  | .name error => "类名错误: " ++ error.message
  | .config error => "配置错误: " ++ error.message
  | .emit error => "生成文件错误: " ++ error.message IoError.message
  | .index error => "声明索引错误: " ++ error.message

end Multibinding
