import Multibinding.Json.Read
import Multibinding.Name.TypeRef

/-!
# Type references in JSON

A type reference is an object with one member that names its kind. `TypeRef.toJson` writes it and
`TypeRef.read` reads it back; the reader also takes the contents of a kind as a list.
`TypeRef.ofValue?` tells whether a value that has been read already has this form.
-/

namespace Multibinding.TypeRef

open Json

mutual

/-- The JSON form of a type reference. -/
def toJson : TypeRef → Value
  | .declared name => .object [("class", .string name.canonical)]
  | .parameterized raw arguments =>
    .object [("parameterized", .object [("raw", .string raw.canonical),
      ("arguments", .array (toJsonList arguments))])]
  | .wildcard => .object [("wildcard", .object [("upper_bound", .null)])]
  | .subtypeOf bound => .object [("wildcard", .object [("upper_bound", bound.toJson)])]

/-- The JSON forms of several type references. -/
def toJsonList : List TypeRef → List Value
  | [] => []
  | t :: rest => t.toJson :: toJsonList rest

end

/-- The shape of a class with type arguments, given a reader for these. -/
def parameterizedShape (argument : Reader TypeRef) :
    Reader.Shape (Option ClassName × Option (List TypeRef)) :=
  { expected := "struct variant TypeRef::Parameterized"
    fields := [
      .of "raw" (·.1) (fun s raw => (some raw, s.2)) Reader.className,
      .of "arguments" (·.2) (fun s arguments => (s.1, some arguments)) (Reader.array argument)]
    required := 2 }

/-- The shape of a wildcard, given a reader for its bound. -/
def wildcardShape (bound : Reader TypeRef) : Reader.Shape (Option (Option TypeRef)) :=
  { expected := "struct variant TypeRef::Wildcard"
    fields := [.of "upper_bound" id (fun _ bound => some bound) (Reader.optional bound)]
    required := 0 }

/-- The kinds of a type reference, given a reader for the type references inside it. -/
def variants (inner : Reader TypeRef) : List (Reader.Variant TypeRef) :=
  [ .full "class" "newtype variant" fun n => (Reader.className n).map .declared,
    .full "parameterized" "struct variant" fun n => do
      let (raw, arguments) ← (parameterizedShape inner).read (none, none) n
      return .parameterized (← Reader.require "raw" raw) (← Reader.require "arguments" arguments),
    .full "wildcard" "struct variant" fun n => do
      match ← (wildcardShape inner).read none n with
      | some (some bound) => return .subtypeOf bound
      | _ => return .wildcard ]

/-- Reads a type reference of a limited nesting. -/
def readWithin : Nat → Reader TypeRef
  | 0 => fun _ => .error (.text .malformed)
  | levels + 1 => Reader.choice (variants (readWithin levels))

/-- Reads a type reference. One inside another is at least two objects deeper in the document, so
that the limit lies beyond the depth up to which documents are read. -/
def read : Reader TypeRef :=
  readWithin Document.maxDepth

/-- Reads the JSON text of a type reference. -/
def ofJsonText (s : String) : Except ReadError TypeRef :=
  read.run s

/-- The only element of a list, if it succeeded. -/
def single? {α : Type} : List (Option α) → Option α
  | [some a] => some a
  | _ => none

/-- The class name that a value writes. -/
def className? : Value → Option ClassName
  | .string s => (ClassName.parse s).toOption
  | _ => none

/-- The class name in the member called `raw`. -/
def raw? (members : List (String × Value)) : Option ClassName :=
  single? ((members.filter (·.1 == "raw")).map fun (_, v) => className? v)

mutual

/-- The type reference that has a JSON form. -/
def ofValue? : Value → Option TypeRef
  | .object members => ofKind? members
  | _ => none

/-- The type reference whose kind and contents are the only member. -/
def ofKind? : List (String × Value) → Option TypeRef
  | [(kind, contents)] =>
    if kind = "class" then (className? contents).map .declared
    else if kind = "parameterized" then ofParameterized? contents
    else if kind = "wildcard" then ofWildcard? contents
    else none
  | _ => none

/-- The class with type arguments whose contents have a form. -/
def ofParameterized? : Value → Option TypeRef
  | .object members => do
    return .parameterized (← raw? members) (← single? (argumentsIn members))
  | .array items => ofParts? items
  | _ => none

/-- The class with type arguments whose parts are listed. -/
def ofParts? : List Value → Option TypeRef
  | [raw, arguments] => do return .parameterized (← className? raw) (← ofArguments? arguments)
  | _ => none

/-- The wildcard whose contents have a form. -/
def ofWildcard? : Value → Option TypeRef
  | .object members => match boundsIn members with
    | [] => some .wildcard
    | bounds => single? bounds
  | .array items => ofBounds? items
  | _ => none

/-- The wildcard whose bound is listed, if it has one. -/
def ofBounds? : List Value → Option TypeRef
  | [] => some .wildcard
  | [bound] => ofBound? bound
  | _ => none

/-- The wildcard whose bound has a form. -/
def ofBound? : Value → Option TypeRef
  | .null => some .wildcard
  | .object members => (ofKind? members).map .subtypeOf
  | _ => none

/-- The type arguments that a value lists. -/
def ofArguments? : Value → Option (List TypeRef)
  | .array items => ofValues? items
  | _ => none

/-- The type references whose forms are the items of a list. -/
def ofValues? : List Value → Option (List TypeRef)
  | [] => some []
  | v :: rest => do return (← ofValue? v) :: (← ofValues? rest)

/-- The type arguments in each member called `arguments`. -/
def argumentsIn : List (String × Value) → List (Option (List TypeRef))
  | [] => []
  | (key, v) :: rest =>
    if key = "arguments" then ofArguments? v :: argumentsIn rest else argumentsIn rest

/-- The wildcard of each member called `upper_bound`. -/
def boundsIn : List (String × Value) → List (Option TypeRef)
  | [] => []
  | (key, v) :: rest =>
    if key = "upper_bound" then ofBound? v :: boundsIn rest else boundsIn rest

end

end Multibinding.TypeRef
