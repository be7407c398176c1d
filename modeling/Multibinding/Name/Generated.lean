import Multibinding.Name.ClassName

/-!
# Names of generated classes

Every generated class is named after the declarations it comes from, so that the same input gives
the same names in every round.
-/

namespace Multibinding

/-- The text with its first letter as a capital, if that is an ASCII letter. -/
def upperCamel (s : String) : String :=
  match s.toList with
  | [] => ""
  | c :: rest => String.ofList (c.toUpper :: rest)

namespace ClassName

/-- The top-level class in the same package whose name joins the simple names of the container
with underscores and adds a suffix. -/
def flattened (container : ClassName) (suffix : String) : ClassName :=
  container.topLevelClass.peer (String.intercalate "_" container.simpleNames ++ suffix)

/-- The module generated for a method of the container. -/
def generatedModule (container : ClassName) (method : String) : ClassName :=
  container.flattened ("_" ++ upperCamel method)

/-- The subcomponent of a target inside its generated module. -/
def subcomponent (module target : ClassName) : ClassName :=
  module.inner (target.simpleName ++ "Subcomponent")

/-- The builder inside a subcomponent. -/
def subcomponentBuilder (subcomponent : ClassName) : ClassName :=
  subcomponent.inner "Builder"

/-- The module that gathers the generated modules of a round, named after a container. -/
def contributionsModule (container : ClassName) : ClassName :=
  container.flattened "_Contributions"

end ClassName

end Multibinding
