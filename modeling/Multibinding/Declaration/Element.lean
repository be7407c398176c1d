import Multibinding.Declaration.Annotation

/-!
# Declared elements

The declarations of a program as far as generation looks at them: types with their annotations,
supertypes and methods.
-/

namespace Multibinding

/-- The kind of a declared type. -/
inductive TypeKind where
  /-- A class. -/
  | plain
  | interface
  | annotationType
deriving DecidableEq

/-- The keyword of a kind. -/
def TypeKind.keyword : TypeKind → String
  | .plain => "class"
  | .interface => "interface"
  | .annotationType => "annotation"

/-- A declared method. -/
structure MethodElement where
  /-- The name of the method. -/
  name : String
  /-- The type it returns. -/
  returnType : TypeRef
  /-- The annotations on it. -/
  annotations : List Annotation

/-- A declared type. -/
structure TypeElement where
  /-- The name of the type. -/
  name : ClassName
  /-- The kind of the type. -/
  kind : TypeKind
  /-- The annotations on it. -/
  annotations : List Annotation
  /-- Its direct supertypes. -/
  supertypes : List TypeRef
  /-- The methods declared in it. -/
  methods : List MethodElement

/-- The first method of a name. -/
def TypeElement.method? (t : TypeElement) (name : String) : Option MethodElement :=
  t.methods.find? (·.name == name)

/-- Points at a declaration by name. -/
inductive Element where
  | type (name : ClassName)
  | method (owner : ClassName) (name : String)
deriving DecidableEq

namespace Element

/-- Whether the element is a method. -/
def isMethod : Element → Bool
  | .type _ => false
  | .method .. => true

/-- The text of an element in messages. -/
def text : Element → String
  | .type name => name.canonical
  | .method owner name => s!"{owner.canonical}.{name}()"

end Element

/-- Whether one of a list of annotations has a type. -/
def isMarkedBy (marker : ClassName) (annotations : List Annotation) : Bool :=
  annotations.any (·.type == marker)

end Multibinding
