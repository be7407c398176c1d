import Multibinding.Java.Annotation

/-!
# Generated declarations

The tree of a generated type: its header, its methods and the types nested in it.
-/

namespace Multibinding.Java

/-- A modifier of a declaration. -/
inductive Modifier where
  | publicMod
  | protectedMod
  | privateMod
  | abstractMod
  | staticMod
  | finalMod
deriving DecidableEq

namespace Modifier

/-- The keyword of a modifier. -/
def keyword : Modifier → String
  | .publicMod => "public"
  | .protectedMod => "protected"
  | .privateMod => "private"
  | .abstractMod => "abstract"
  | .staticMod => "static"
  | .finalMod => "final"

/-- All modifiers in the order in which source code has them. -/
def all : List Modifier :=
  [.publicMod, .protectedMod, .privateMod, .abstractMod, .staticMod, .finalMod]

/-- The modifier of a keyword. -/
def ofKeyword? (keyword : String) : Option Modifier :=
  all.find? (·.keyword == keyword)

/-- The modifiers of a list, each once and in the order of source code. -/
def ordered (modifiers : List Modifier) : List Modifier :=
  all.filter (modifiers.contains ·)

/-- The modifiers of a declaration as they stand in front of it. -/
def text (modifiers : List Modifier) : String :=
  String.join ((ordered modifiers).map (·.keyword ++ " "))

end Modifier

/-- A parameter of a generated method. -/
structure Parameter where
  /-- The type of the parameter. -/
  type : TypeRef
  /-- The name of the parameter. -/
  name : String

/-- A generated method or constructor. Without modifiers, annotations and parameters, and `void`,
unless stated. -/
structure Method where
  /-- The name; a constructor has none. -/
  name? : Option String
  /-- The modifiers, in any order. -/
  modifiers : List Modifier := []
  /-- The annotations in front of it. -/
  annotations : List AnnotationUse := []
  /-- The parameters. -/
  parameters : List Parameter := []
  /-- The type it returns, unless `void`. -/
  returns : Option TypeRef := none

namespace Method

/-- The name under which the method is found; that of a constructor is empty. -/
def name (m : Method) : String :=
  m.name?.getD ""

/-- Whether the method is a constructor. -/
def isConstructor (m : Method) : Bool :=
  m.name?.isNone

/-- Whether the method is abstract. -/
def isAbstract (m : Method) : Bool :=
  m.modifiers.contains .abstractMod

/-- The first annotation of a type on the method. -/
def annotation? (m : Method) (type : ClassName) : Option AnnotationUse :=
  m.annotations.find? (·.type == type)

end Method

/-- The kind of a generated type. -/
inductive DeclarationKind where
  | classKind
  | interfaceKind
deriving DecidableEq

/-- A generated type. Without all that is not stated. -/
structure TypeDecl where
  /-- The kind of the type. -/
  kind : DeclarationKind
  /-- The simple name. -/
  name : String
  /-- The modifiers, in any order. -/
  modifiers : List Modifier := []
  /-- The annotations in front of it. -/
  annotations : List AnnotationUse := []
  /-- The class it extends. -/
  superclass : Option TypeRef := none
  /-- The interfaces it implements, or extends if it is an interface itself. -/
  superinterfaces : List TypeRef := []
  /-- The methods and constructors. -/
  methods : List Method := []
  /-- The types nested in it. -/
  types : List TypeDecl := []

namespace TypeDecl

/-- The first method of a name. -/
def method? (t : TypeDecl) (name : String) : Option Method :=
  t.methods.find? (·.name == name)

/-- The first nested type of a simple name. -/
def nested? (t : TypeDecl) (name : String) : Option TypeDecl :=
  t.types.find? (·.name == name)

/-- The first annotation of a type on the generated type. -/
def annotation? (t : TypeDecl) (type : ClassName) : Option AnnotationUse :=
  t.annotations.find? (·.type == type)

end TypeDecl

end Multibinding.Java
