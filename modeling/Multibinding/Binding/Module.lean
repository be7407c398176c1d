import Multibinding.Binding.Contribution
import Multibinding.Java.SourceFile

/-!
# Generated modules

The source files that are generated: a module for each contribution, which binds the builder of a
subcomponent into the map of injectors; a module that includes those of a round; and a module that
declares the maps, so that they exist also where nothing is contributed.
-/

namespace Multibinding

open Java

/-- The class literal of a class as the value of an annotation member. -/
def classMember (name : ClassName) : MemberValue :=
  .classLiteral (.declared name)

/-- The constructor that keeps others from making instances. -/
def privateConstructor : Method :=
  { name? := none, modifiers := [.privateMod] }

namespace Contribution

/-- The annotation that keys the binding of a contribution. -/
def keyAnnotation (framework : FrameworkNames) (c : Contribution) : AnnotationUse :=
  if c.useStringKeys then
    (AnnotationUse.marker framework.stringKey).addMember "value" (.string c.target.canonical)
  else (AnnotationUse.marker framework.classKey).addMember "value" (classMember c.target)

/-- The method that binds the builder of the subcomponent. -/
def bindMethod (framework : FrameworkNames) (c : Contribution) : Method :=
  { name? := some "bindInjectorFactory"
    modifiers := [.abstractMod]
    annotations := [.marker framework.binds, .marker framework.intoMap, c.keyAnnotation framework]
    parameters := [{ type := .declared c.subcomponentBuilder, name := "builder" }]
    returns := some (.parameterized framework.injectorFactory [.subtypeOf .object]) }

/-- The builder of the subcomponent. -/
def builderDecl (framework : FrameworkNames) (c : Contribution) : TypeDecl :=
  { kind := .classKind
    name := c.subcomponentBuilder.simpleName
    modifiers := [.publicMod, .abstractMod, .staticMod]
    annotations := [.marker framework.subcomponentBuilder]
    superclass := some (.parameterized framework.injectorBuilder [.declared c.target]) }

/-- The subcomponent, with its further modules and its scopes. -/
def subcomponentDecl (framework : FrameworkNames) (c : Contribution) : TypeDecl :=
  { kind := .interfaceKind
    name := c.subcomponent.simpleName
    modifiers := [.publicMod]
    annotations :=
      c.modules.foldl (fun a name => a.addMember "modules" (classMember name))
        (.marker framework.subcomponent) :: c.scopes.map AnnotationUse.ofAnnotation
    superinterfaces := [.parameterized framework.injector [.declared c.target]]
    types := [c.builderDecl framework] }

/-- The module of a contribution. -/
def moduleDecl (framework : FrameworkNames) (c : Contribution) : TypeDecl :=
  { kind := .classKind
    name := c.moduleName.simpleName
    modifiers := [.publicMod, .abstractMod]
    annotations :=
      [(AnnotationUse.marker framework.module).addMember "subcomponents"
        (classMember c.subcomponent)]
    methods := [privateConstructor, c.bindMethod framework]
    types := [c.subcomponentDecl framework] }

/-- The file with the module of a contribution. -/
def file (config : Config) (c : Contribution) : SourceFile :=
  { name := c.moduleName
    type := c.moduleDecl config.framework
    comment := config.fileComment }

end Contribution

/-- A module that includes the modules of contributions. -/
structure AggregateModule where
  /-- The name of the module. -/
  name : ClassName
  /-- The contributions. -/
  contributions : List Contribution

namespace AggregateModule

/-- The module for the contributions of a round, named after the container of the first one; none
if there are no contributions. -/
def ofContributions? : List Contribution → Option AggregateModule
  | [] => none
  | c :: rest => some { name := c.container.contributionsModule, contributions := c :: rest }

/-- A sorted list with each run of equal names made one. -/
def once : List ClassName → List ClassName
  | [] => []
  | [a] => [a]
  | a :: b :: rest => if a = b then once (b :: rest) else a :: once (b :: rest)

/-- The modules to include, in ascending order and each once. -/
def moduleNames (a : AggregateModule) : List ClassName :=
  once ((a.contributions.map Contribution.moduleName).mergeSort ClassName.le)

/-- The file with the module. -/
def file (config : Config) (a : AggregateModule) : SourceFile :=
  { name := a.name
    type :=
      { kind := .classKind
        name := a.name.simpleName
        modifiers := [.publicMod, .abstractMod]
        annotations :=
          [a.moduleNames.foldl (fun u name => u.addMember "includes" (classMember name))
            (.marker config.framework.module)]
        methods := [privateConstructor] }
    comment := config.fileComment }

end AggregateModule

namespace InjectionModule

/-- The method that declares a map of injectors by its keys. -/
def mapMethod (framework : FrameworkNames) (name : String) (key : TypeRef) : Method :=
  { name? := some name
    modifiers := [.abstractMod]
    annotations := [.marker framework.multibinds]
    returns := some (.parameterized .map
      [key, .parameterized framework.injectorFactory [.wildcard]]) }

/-- The file with the module that declares the maps. -/
def file (config : Config) (name : ClassName) : SourceFile :=
  { name
    type :=
      { kind := .classKind
        name := name.simpleName
        modifiers := [.publicMod, .abstractMod]
        annotations := [.marker config.framework.module]
        methods := [
          mapMethod config.framework "allInjectorFactories"
            (.parameterized .classLiteral [.wildcard]),
          mapMethod config.framework "allInjectorFactoriesWithStringKeys" (.declared .string)] }
    comment := config.fileComment }

end InjectionModule

end Multibinding
