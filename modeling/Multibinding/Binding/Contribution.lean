import Multibinding.Binding.Collection
import Multibinding.Name.Generated

/-!
# Contributions

A method with the contribution marker contributes an injector for the class that it returns. It is
bound through the first registered key whose base class its return type can be assigned to. A method
that cannot be bound is reported, and the others are bound all the same.
-/

namespace Multibinding

/-- A contribution of an injector. -/
structure Contribution where
  /-- The module that declares the method. -/
  container : ClassName
  /-- The name of the method. -/
  method : String
  /-- The class that the injector is for. -/
  target : ClassName
  /-- The base class of the key that the contribution is bound through. -/
  base : Option ClassName
  /-- The type that the map of the key is keyed by. -/
  valueType : Option TypeRef
  /-- Whether the contribution is keyed by a string. -/
  useStringKeys : Bool := false
  /-- The further modules of the subcomponent, each once. -/
  modules : List ClassName := []
  /-- The scopes of the subcomponent, each once. -/
  scopes : List Annotation := []

namespace Contribution

/-- The declaration that the contribution comes from. -/
def element (c : Contribution) : Element :=
  .method c.container c.method

/-- The module to generate. -/
def moduleName (c : Contribution) : ClassName :=
  c.container.generatedModule c.method

/-- The subcomponent in the generated module. -/
def subcomponent (c : Contribution) : ClassName :=
  c.moduleName.subcomponent c.target

/-- The builder of the subcomponent. -/
def subcomponentBuilder (c : Contribution) : ClassName :=
  c.subcomponent.subcomponentBuilder

/-- Adds a module to the subcomponent, unless it has it already. -/
def addModule (c : Contribution) (name : ClassName) : Contribution :=
  if c.modules.contains name then c else { c with modules := c.modules ++ [name] }

/-- Adds a scope to the subcomponent, unless it has it already. -/
def addScope (c : Contribution) (scope : Annotation) : Contribution :=
  if c.scopes.any scope.sameElement then c else { c with scopes := c.scopes ++ [scope] }

end Contribution

/-- Why a contribution cannot be bound. -/
inductive ContributionError where
  /-- There is no such method. -/
  | unknownDeclaration
  /-- The method returns nothing that a registered key is for. -/
  | noMatchingKey
  /-- The method is not declared in a module. -/
  | outsideModule
  /-- The return type names no class. -/
  | undeclaredType (produced : TypeRef)
deriving DecidableEq

/-- The wording of the report on a contribution. -/
def ContributionError.message (element : Element) : ContributionError → String
  | .unknownDeclaration => "unknown contribution declaration " ++ element.text
  | .noMatchingKey => "no matching binding key found for " ++ element.text
  | .outsideModule => "contribution marker must be in a module-marked container"
  | .undeclaredType produced =>
    "contribution " ++ element.text ++ " must return a declared type, found " ++ produced.text

/-- The name of the argument in which a contribution lists further modules. -/
def modulesArgument : String := "modules"

namespace Contribution

/-- The first registered key that what a method returns can be assigned to. -/
def matchingKey? (index : DeclarationIndex) (registry : KeyRegistry) (produced : TypeRef) :
    Option InjectorKey :=
  registry.firstMatch? fun key => index.isAssignable produced (.declared key.base)

/-- Whether a method is declared in a module. -/
def isInModule (config : Config) (index : DeclarationIndex) (element : Element) : Bool :=
  match index.container? element with
  | some container => index.isAnnotated (.type container.name) config.markers.module
  | none => false

/-- The further modules that a contribution lists. -/
def declaredModules (config : Config) (index : DeclarationIndex) (element : Element) :
    List ClassName :=
  match index.annotation? element config.markers.contributeInjector with
  | some a => (a.typeList modulesArgument).filterMap TypeRef.rawClass?
  | none => []

/-- Resolves the contribution of a method. -/
def ofMethod (config : Config) (index : DeclarationIndex) (registry : KeyRegistry)
    (owner : ClassName) (name : String) : Except ContributionError Contribution := do
  let element : Element := .method owner name
  -- Of several reasons against a contribution the first one in this order is reported.
  let some method := index.method? owner name | throw .unknownDeclaration
  let produced := method.returnType
  let some key := matchingKey? index registry produced | throw .noMatchingKey
  if !isInModule config index element then throw .outsideModule
  let some target := produced.rawClass? | throw (.undeclaredType produced)
  let c : Contribution :=
    { container := owner
      method := name
      target
      base := some key.base
      valueType := some key.valueType
      useStringKeys := key.useStringKeys }
  -- Annotations on the method are scopes if their own types are marked as scopes.
  let c := (index.metaAnnotated element config.markers.scope).foldl addScope c
  return (declaredModules config index element).foldl addModule c

/-- Resolves the contribution of an element, or reports why there is none. Types contribute
nothing, and are not reported. -/
def ofElement? (config : Config) (index : DeclarationIndex) (registry : KeyRegistry) :
    Element → Option (Except Diagnostic Contribution)
  | .type _ => none
  | .method owner name =>
    some ((ofMethod config index registry owner name).mapError fun e =>
      .error (.method owner name) (e.message (.method owner name)))

/-- What becomes of all contributions that an index declares, in their order. -/
def resolutions (config : Config) (index : DeclarationIndex) (registry : KeyRegistry) :
    List (Except Diagnostic Contribution) :=
  (index.elementsAnnotatedWith config.markers.contributeInjector).filterMap
    (ofElement? config index registry)

end Contribution

end Multibinding
