import Multibinding.Declaration.Annotation

/-!
# Annotations of generated declarations

An annotation in generated source has members, each with one or more values. Several values of a
member are written as an array, and so is a value that is an array itself.
-/

namespace Multibinding.Java

/-- A value of an annotation member. -/
inductive MemberValue where
  /-- The class literal of a type. -/
  | classLiteral (type : TypeRef)
  /-- A string, to be written as a string literal. -/
  | string (value : String)
  /-- A literal that is written as it is. -/
  | literal (text : String)
  | array (values : List MemberValue)

/-- The text of a character inside a string literal. -/
def escapedChar (c : Char) : List Char :=
  match c with
  | '"' => ['\\', '"']
  | '\\' => ['\\', '\\']
  | '\n' => ['\\', 'n']
  | '\r' => ['\\', 'r']
  | '\t' => ['\\', 't']
  | c => [c]

/-- The string literal of a text. -/
def stringLiteral (s : String) : String :=
  String.ofList ('"' :: s.toList.flatMap escapedChar ++ ['"'])

/-- The class literal of a type, which names the class without its type arguments. A wildcard is
named by its bound. -/
def classLiteral (type : TypeRef) : String :=
  match type.rawClass? with
  | some raw => raw.canonical ++ ".class"
  | none => type.upperBound.text ++ ".class"

namespace MemberValue

mutual

/-- The text of a member value. -/
def text : MemberValue → String
  | .classLiteral type => Java.classLiteral type
  | .string value => stringLiteral value
  | .literal text => text
  | .array values => "\x7b" ++ String.intercalate ", " (texts values) ++ "\x7d"

/-- The texts of several member values. -/
def texts : List MemberValue → List String
  | [] => []
  | v :: rest => v.text :: texts rest

end

mutual

/-- The value of an annotation argument as a member value. -/
def ofArgument : AnnotationValue → MemberValue
  | .bool value => .literal (if value then "true" else "false")
  | .int value => .literal (toString value)
  | .string value => .string value
  | .type value => .classLiteral value
  | .typeList values => .array (values.map .classLiteral)
  | .list values => .array (ofArguments values)
  | .enum constant => .literal constant
  | .other value => .literal value.compact

/-- The values of several annotation arguments as member values. -/
def ofArguments : List AnnotationValue → List MemberValue
  | [] => []
  | v :: rest => ofArgument v :: ofArguments rest

end

/-- The text of all values of a member: a single value stands alone. -/
def listText : List MemberValue → String
  | [value] => value.text
  | values => (array values).text

end MemberValue

/-- An annotation in generated source. -/
structure AnnotationUse where
  /-- The annotation type. -/
  type : ClassName
  /-- The members in the order in which they were first added. -/
  members : List (String × List MemberValue)

namespace AnnotationUse

/-- The annotation without members. -/
def marker (type : ClassName) : AnnotationUse :=
  { type, members := [] }

/-- Adds a value to a list of members, as a further value of the member that has the name
already. -/
def addTo (name : String) (value : MemberValue) :
    List (String × List MemberValue) → List (String × List MemberValue)
  | [] => [(name, [value])]
  | (n, values) :: rest =>
    if n = name then (n, values ++ [value]) :: rest else (n, values) :: addTo name value rest

/-- Adds a value of a member. -/
def addMember (a : AnnotationUse) (name : String) (value : MemberValue) : AnnotationUse :=
  { a with members := addTo name value a.members }

/-- The copy of an annotation that stands on a declaration. -/
def ofAnnotation (a : Annotation) : AnnotationUse :=
  { type := a.type
    members := a.values.map fun (name, value) => (name, [MemberValue.ofArgument value]) }

/-- The values of a member. -/
def member? (a : AnnotationUse) (name : String) : Option (List MemberValue) :=
  a.members.lookup name

/-- The text of the annotation. A sole member of the name `value` is written without the name. -/
def text (a : AnnotationUse) : String :=
  match a.members with
  | [] => "@" ++ a.type.canonical
  | [("value", values)] => "@" ++ a.type.canonical ++ "(" ++ MemberValue.listText values ++ ")"
  | members =>
    "@" ++ a.type.canonical ++ "(" ++
      String.intercalate ", "
        (members.map fun (name, values) => name ++ " = " ++ MemberValue.listText values) ++ ")"

end AnnotationUse

end Multibinding.Java
