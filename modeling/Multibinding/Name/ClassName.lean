import Multibinding.Name.Identifier
import Multibinding.Text
import Multibinding.Unicode.Uppercase
import Multibinding.Unicode.WhiteSpace

/-!
# Class names

A class name is a package together with the chain of simple names that leads from a top-level
class to the class itself. `ClassName.parse` reads the dotted form, in which the first part that
starts with a capital ends the package, and `ClassName.canonical` writes it.
-/

namespace Multibinding

/-- Why a text is no class name. -/
inductive NameError where
  /-- Nothing but white space. -/
  | empty
  /-- No part starts with a capital. -/
  | noSimpleName (name : String)
  /-- A part is no identifier. -/
  | invalidIdentifier (identifier : String)
deriving DecidableEq

/-- The wording of a name error. -/
def NameError.message : NameError → String
  | .empty => "类名为空"
  | .noSimpleName name => s!"无法从 {name} 推断类名: 缺少以大写字母开头的简单名称"
  | .invalidIdentifier identifier => s!"无效的标识符: {identifier}"

/-- The qualified name of a class. -/
structure ClassName where
  /-- The dotted package; empty for the default package. -/
  package : String
  /-- The simple name of the top-level class. -/
  topLevel : String
  /-- The simple names from below the top-level class down to the class itself. -/
  nested : List String
deriving DecidableEq

namespace ClassName

/-- The simple names from the top-level class down to the class itself. -/
def simpleNames (c : ClassName) : List String :=
  c.topLevel :: c.nested

/-- The simple name of the class itself. -/
def simpleName (c : ClassName) : String :=
  c.nested.getLast?.getD c.topLevel

/-- The dotted form of the name. -/
def canonical (c : ClassName) : String :=
  let simple := String.intercalate "." c.simpleNames
  if c.package.isEmpty then simple else c.package ++ "." ++ simple

instance : ToString ClassName := ⟨canonical⟩

/-- Whether the class is a top-level one. -/
def isTopLevel (c : ClassName) : Bool :=
  c.nested.isEmpty

/-- The class that directly encloses this one. -/
def enclosing? (c : ClassName) : Option ClassName :=
  if c.nested.isEmpty then none else some { c with nested := c.nested.dropLast }

/-- The top-level class that this one stands in. -/
def topLevelClass (c : ClassName) : ClassName :=
  { c with nested := [] }

/-- The class of another simple name beside this one. -/
def peer (c : ClassName) (name : String) : ClassName :=
  if c.nested.isEmpty then { c with topLevel := name }
  else { c with nested := c.nested.dropLast ++ [name] }

/-- The class of a simple name directly inside this one. -/
def inner (c : ClassName) (name : String) : ClassName :=
  { c with nested := c.nested ++ [name] }

/-- The class that directly encloses an inner one. -/
theorem enclosing?_inner (c : ClassName) (name : String) : (c.inner name).enclosing? = some c := by
  simp [enclosing?, inner]

/-- The last simple name of an inner class. -/
theorem simpleName_inner (c : ClassName) (name : String) : (c.inner name).simpleName = name := by
  simp [simpleName, inner]

/-- Class names are ordered by package and then by their chains of simple names. -/
def lt (a b : ClassName) : Bool :=
  a.package < b.package ||
    (a.package == b.package && a.simpleNames.lex b.simpleNames fun s t => s < t)

/-- Whether a class name is no later than another one. -/
def le (a b : ClassName) : Bool :=
  !lt b a

/-- Builds a class name from its parts, all of which have to be identifiers. The first part that
is none is reported, the package before the simple names. -/
def ofParts (package topLevel : String) (nested : List String) : Except NameError ClassName :=
  -- The default package has no parts, while an empty text is split into one.
  let packageParts := if package.isEmpty then [] else Text.split '.' package
  match (packageParts ++ topLevel :: nested).find? (!isIdentifier ·) with
  | some identifier => .error (.invalidIdentifier identifier)
  | none => .ok { package, topLevel, nested }

/-- Whether a part of a dotted name starts with a capital. -/
def startsUppercase (part : String) : Bool :=
  part.toList.head?.any Unicode.isUppercase

/-- Reads a dotted name. White space around it is dropped, and the first part that starts with a
capital is the simple name of the top-level class. -/
def parse (s : String) : Except NameError ClassName :=
  let name := Text.trim Unicode.isWhiteSpace s
  if name.isEmpty then .error .empty
  else
    let parts := Text.split '.' name
    match parts.dropWhile (!startsUppercase ·) with
    | [] => .error (.noSimpleName name)
    | topLevel :: nested =>
      ofParts (String.intercalate "." (parts.takeWhile (!startsUppercase ·))) topLevel nested

/-- The root of all classes. -/
def object : ClassName := ⟨"java.lang", "Object", []⟩

/-- The class of strings. -/
def string : ClassName := ⟨"java.lang", "String", []⟩

/-- The class of class literals. -/
def classLiteral : ClassName := ⟨"java.lang", "Class", []⟩

/-- The class of maps. -/
def map : ClassName := ⟨"java.util", "Map", []⟩

end ClassName

end Multibinding
