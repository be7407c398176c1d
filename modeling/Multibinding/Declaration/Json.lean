import Multibinding.Declaration.Index
import Multibinding.Name.TypeRefJson

/-!
# Declarations in JSON

The index is exchanged as a JSON object with the list of its types. `DeclarationIndex.toJson`
writes all fields of every declaration; the reader lets those be missing that have an empty or
usual value.

An annotation argument is any JSON value. Which kind of argument it is follows from its form
alone: a truth value, an integer of 64 bits, a string, a class literal, a list of class literals,
another list, an enumeration constant, or else a literal that is kept as it is.
-/

namespace Multibinding

open Json

namespace AnnotationValue

/-- The constant of an enumeration literal: the only member called `enum`, if it is a string. -/
def constant? (members : List (String × Value)) : Option String :=
  match members.filter (·.1 == "enum") with
  | [(_, .string constant)] => some constant
  | _ => none

mutual

/-- The argument value that a JSON value stands for. -/
def ofValue : Value → AnnotationValue
  | .bool value => .bool value
  | .number (.int value) =>
    if Word.isSigned value then .int value else .other (.number (.int value))
  | .string value => .string value
  | .array items =>
    -- An empty list counts as one of class literals.
    match TypeRef.ofValues? items with
    | some types => .typeList types
    | none => .list (ofValues items)
  | .object members =>
    match TypeRef.ofValue? (.object members) with
    | some t => .type t
    | none =>
      match constant? members with
      | some constant => .enum constant
      -- Kept as a literal, an object has each key once and its keys sorted.
      | none => .other (Value.object members).canonical
  | .null => .other .null
  | .number (.float value) => .other (.number (.float value))

/-- The argument values that several JSON values stand for. -/
def ofValues : List Value → List AnnotationValue
  | [] => []
  | v :: rest => ofValue v :: ofValues rest

end

mutual

/-- The JSON form of an argument value. -/
def toJson : AnnotationValue → Value
  | .bool value => .bool value
  | .int value => .number (.int value)
  | .string value => .string value
  | .type value => value.toJson
  | .typeList values => .array (TypeRef.toJsonList values)
  | .list values => .array (toJsonList values)
  | .enum constant => .object [("enum", .string constant)]
  | .other value => value

/-- The JSON forms of several argument values. -/
def toJsonList : List AnnotationValue → List Value
  | [] => []
  | v :: rest => v.toJson :: toJsonList rest

end

/-- Reads an argument value. Every value is one. -/
def read : Reader AnnotationValue :=
  fun n => n.value.map ofValue

end AnnotationValue

namespace Annotation

/-- The shape of an annotation. -/
def shape : Reader.Shape (Option ClassName × Option (List (String × AnnotationValue))) :=
  { expected := "struct Annotation"
    fields := [
      .of "type" (·.1) (fun s type => (some type, s.2)) Reader.className,
      .of "values" (·.2) (fun s values => (s.1, some values)) (Reader.entries AnnotationValue.read)]
    required := 1 }

/-- Reads an annotation. -/
def read : Reader Annotation := fun n => do
  let (type, values) ← shape.read (none, none) n
  return { type := ← Reader.require "type" type, values := values.getD [] }

/-- Reads the JSON text of an annotation. -/
def ofJsonText (s : String) : Except ReadError Annotation :=
  read.run s

/-- The JSON form of an annotation. -/
def toJson (a : Annotation) : Value :=
  .object [
    ("type", .string a.type.canonical),
    ("values", .object (a.values.map fun (name, value) => (name, value.toJson)))]

end Annotation

namespace TypeKind

/-- Reads a kind. -/
def read : Reader TypeKind :=
  Reader.choice [.plain "class" .plain, .plain "interface" .interface,
    .plain "annotation" .annotationType]

end TypeKind

namespace MethodElement

/-- The fields of a method that have been read. -/
structure Partial where
  /-- The name. -/
  name : Option String := none
  /-- The type it returns. -/
  returnType : Option TypeRef := none
  /-- The annotations. -/
  annotations : Option (List Annotation) := none

/-- The shape of a method. -/
def shape : Reader.Shape Partial :=
  { expected := "struct MethodElement"
    fields := [
      .of "name" (·.name) (fun s name => { s with name := some name }) Reader.string,
      .of "return_type" (·.returnType) (fun s type => { s with returnType := some type })
        TypeRef.read,
      .of "annotations" (·.annotations) (fun s annotations =>
        { s with annotations := some annotations }) (Reader.array Annotation.read)]
    required := 2 }

/-- Reads a method. -/
def read : Reader MethodElement := fun n => do
  let s ← shape.read {} n
  return {
    name := ← Reader.require "name" s.name
    returnType := ← Reader.require "return_type" s.returnType
    annotations := s.annotations.getD [] }

/-- The JSON form of a method. -/
def toJson (m : MethodElement) : Value :=
  .object [
    ("name", .string m.name),
    ("return_type", m.returnType.toJson),
    ("annotations", .array (m.annotations.map Annotation.toJson))]

end MethodElement

namespace TypeElement

/-- The fields of a type that have been read. -/
structure Partial where
  /-- The name. -/
  name : Option ClassName := none
  /-- The kind. -/
  kind : Option TypeKind := none
  /-- The annotations. -/
  annotations : Option (List Annotation) := none
  /-- The supertypes. -/
  supertypes : Option (List TypeRef) := none
  /-- The methods. -/
  methods : Option (List MethodElement) := none

/-- The shape of a type. -/
def shape : Reader.Shape Partial :=
  { expected := "struct TypeElement"
    fields := [
      .of "name" (·.name) (fun s name => { s with name := some name }) Reader.className,
      .of "kind" (·.kind) (fun s kind => { s with kind := some kind }) TypeKind.read,
      .of "annotations" (·.annotations) (fun s annotations =>
        { s with annotations := some annotations }) (Reader.array Annotation.read),
      .of "supertypes" (·.supertypes) (fun s supertypes =>
        { s with supertypes := some supertypes }) (Reader.array TypeRef.read),
      .of "methods" (·.methods) (fun s methods => { s with methods := some methods })
        (Reader.array MethodElement.read)]
    required := 1 }

/-- Reads a type. -/
def read : Reader TypeElement := fun n => do
  let s ← shape.read {} n
  return {
    name := ← Reader.require "name" s.name
    kind := s.kind.getD .plain
    annotations := s.annotations.getD []
    supertypes := s.supertypes.getD []
    methods := s.methods.getD [] }

/-- Reads the JSON text of a type. -/
def ofJsonText (s : String) : Except ReadError TypeElement :=
  read.run s

/-- The JSON form of a type. -/
def toJson (t : TypeElement) : Value :=
  .object [
    ("name", .string t.name.canonical),
    ("kind", .string t.kind.keyword),
    ("annotations", .array (t.annotations.map Annotation.toJson)),
    ("supertypes", .array (TypeRef.toJsonList t.supertypes)),
    ("methods", .array (t.methods.map MethodElement.toJson))]

end TypeElement

/-- Why no index can be loaded from a text. -/
inductive IndexError where
  | text (error : ReadError)
  | duplicate (error : DuplicateType)

namespace DeclarationIndex

/-- The shape of an index. -/
def shape : Reader.Shape (Option (List TypeElement)) :=
  { expected := "struct IndexFile"
    fields := [
      .of "types" id (fun _ types => some types) (Reader.array TypeElement.read)]
    required := 0 }

/-- Reads the types of an index. -/
def readTypes : Reader (List TypeElement) := fun n => do
  return (← shape.read none n).getD []

/-- Loads an index from its JSON text. -/
def ofJsonText (s : String) : Except IndexError DeclarationIndex :=
  match readTypes.run s with
  | .error e => .error (.text e)
  | .ok types => (ofTypes types).mapError .duplicate

/-- The JSON form of an index. -/
def toJson (index : DeclarationIndex) : Value :=
  .object [("types", .array (index.types.map TypeElement.toJson))]

/-- The JSON text of an index. -/
def toJsonText (index : DeclarationIndex) : String :=
  index.toJson.pretty

end DeclarationIndex

end Multibinding
