import Multibinding.Json.Value
import Multibinding.Name.TypeRef

/-!
# Annotations

An annotation has a type and arguments. Generation reads few arguments, and the others are kept as
they come. Two annotations can be compared in two ways: `eqv` compares them as values, where zero
equals minus zero, and `digest` is what identifies them in a hashed collection.
-/

namespace Multibinding

/-- The value of an annotation argument. -/
inductive AnnotationValue where
  | bool (value : Bool)
  | int (value : Int)
  | string (value : String)
  /-- A class literal. -/
  | type (value : TypeRef)
  /-- A list of class literals. -/
  | typeList (values : List TypeRef)
  /-- Any other list. -/
  | list (values : List AnnotationValue)
  /-- An enumeration constant. -/
  | enum (constant : String)
  /-- Any other literal. -/
  | other (value : Json.Value)

/-- An annotation on a declaration. -/
structure Annotation where
  /-- The annotation type. -/
  type : ClassName
  /-- The arguments, sorted by name. -/
  values : List (String × AnnotationValue)

namespace Json

/-- Whether two numbers are equal as numbers. An integer never equals a floating-point number. -/
def Number.eqv : Number → Number → Bool
  | .int a, .int b => a == b
  | .float a, .float b => a.eqv b
  | _, _ => false

namespace Value

mutual

/-- Whether two values are equal, numbers being compared as numbers. -/
def eqv : Value → Value → Bool
  | .null, .null => true
  | .bool a, .bool b => a == b
  | .number a, .number b => a.eqv b
  | .string a, .string b => a == b
  | .array a, .array b => eqvItems a b
  | .object a, .object b => eqvMembers a b
  | _, _ => false

/-- Whether two lists of items are equal. -/
def eqvItems : List Value → List Value → Bool
  | [], [] => true
  | a :: v, b :: w => a.eqv b && eqvItems v w
  | _, _ => false

/-- Whether two lists of members are equal. -/
def eqvMembers : List (String × Value) → List (String × Value) → Bool
  | [], [] => true
  | (k, a) :: v, (l, b) :: w => k == l && a.eqv b && eqvMembers v w
  | _, _ => false

end

end Value

end Json

/-- A piece of the data that identifies a value in a hashed collection. -/
inductive Atom where
  /-- The number of a constructor, a length, or a truth value. -/
  | word (n : Nat)
  | int (value : Int)
  | text (s : String)
deriving DecidableEq

/-- The identifying data of a class name. -/
def ClassName.digest (c : ClassName) : List Atom :=
  .text c.package :: .word c.simpleNames.length :: c.simpleNames.map .text

namespace TypeRef

mutual

/-- The identifying data of a type reference. -/
def digest : TypeRef → List Atom
  | .declared name => .word 0 :: name.digest
  | .parameterized raw arguments =>
    .word 1 :: raw.digest ++ .word arguments.length :: digests arguments
  | .wildcard => [.word 2, .word 0]
  | .subtypeOf bound => .word 2 :: .word 1 :: bound.digest

/-- The identifying data of several type references. -/
def digests : List TypeRef → List Atom
  | [] => []
  | t :: rest => t.digest ++ digests rest

end

end TypeRef

namespace AnnotationValue

mutual

/-- Whether two argument values are equal. -/
def eqv : AnnotationValue → AnnotationValue → Bool
  | .bool a, .bool b => a == b
  | .int a, .int b => a == b
  | .string a, .string b => a == b
  | .type a, .type b => a == b
  | .typeList a, .typeList b => a == b
  | .list a, .list b => eqvList a b
  | .enum a, .enum b => a == b
  | .other a, .other b => a.eqv b
  | _, _ => false

/-- Whether two lists of argument values are equal. -/
def eqvList : List AnnotationValue → List AnnotationValue → Bool
  | [], [] => true
  | a :: v, b :: w => a.eqv b && eqvList v w
  | _, _ => false

end

mutual

/-- The identifying data of an argument value. A literal of no other kind is identified by its
text. -/
def digest : AnnotationValue → List Atom
  | .bool value => [.word 0, .word value.toNat]
  | .int value => [.word 1, .int value]
  | .string value => [.word 2, .text value]
  | .type value => .word 3 :: value.digest
  | .typeList values => .word 4 :: .word values.length :: TypeRef.digests values
  | .list values => .word 5 :: .word values.length :: digests values
  | .enum constant => [.word 6, .text constant]
  | .other value => [.word 7, .text value.compact]

/-- The identifying data of several argument values. -/
def digests : List AnnotationValue → List Atom
  | [] => []
  | v :: rest => v.digest ++ digests rest

end

end AnnotationValue

namespace Annotation

/-- Whether two lists of arguments are equal. -/
def eqvValues : List (String × AnnotationValue) → List (String × AnnotationValue) → Bool
  | [], [] => true
  | (k, a) :: v, (l, b) :: w => k == l && a.eqv b && eqvValues v w
  | _, _ => false

/-- Whether two annotations are equal. -/
def eqv (a b : Annotation) : Bool :=
  a.type == b.type && eqvValues a.values b.values

/-- The identifying data of an annotation. -/
def digest (a : Annotation) : List Atom :=
  a.type.digest ++ .word a.values.length ::
    a.values.flatMap fun (name, value) => .text name :: value.digest

/-- Whether a hashed collection takes two annotations for the same element. -/
def sameElement (a b : Annotation) : Bool :=
  a.digest == b.digest && a.eqv b

/-- The value of an argument. -/
def value? (a : Annotation) (name : String) : Option AnnotationValue :=
  Entries.find? name a.values

/-- The value of a string argument. -/
def string? (a : Annotation) (name : String) : Option String :=
  match a.value? name with
  | some (.string value) => some value
  | _ => none

/-- The value of a class argument. -/
def type? (a : Annotation) (name : String) : Option TypeRef :=
  match a.value? name with
  | some (.type value) => some value
  | _ => none

/-- The values of an argument that lists classes; a single class is a list of one, and everything
else lists none. -/
def typeList (a : Annotation) (name : String) : List TypeRef :=
  match a.value? name with
  | some (.typeList values) => values
  | some (.type value) => [value]
  | _ => []

end Annotation

end Multibinding
