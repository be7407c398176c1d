import Multibinding.Binding.Key
import Multibinding.Config.Basic
import Multibinding.Declaration.Index
import Multibinding.Diagnostic

/-!
# Collecting injector keys

Declarations with the registry marker list the types of injector keys. Each of these types has to be
an annotation for map keys with a single method, whose return type tells what the map is keyed by. A
type that is not is reported on the declaration that lists it, and the others are collected all the
same.
-/

namespace Multibinding

/-- Why a type is no type of an injector key. -/
inductive MalformedKey where
  /-- It names no class. -/
  | notAClass (key : TypeRef)
  /-- The class is not marked as the type of a map key. -/
  | missingMapKey (key : ClassName)
  /-- The class has not exactly one method. -/
  | accessorCount (key : ClassName) (found : Nat)
  /-- The return type of the method has several type arguments. -/
  | typeArguments (key : ClassName) (found : Nat)
deriving DecidableEq

/-- The wording of the report. -/
def MalformedKey.message : MalformedKey → String
  | .notAClass key => s!"invalid injector key type {key.text}"
  | .missingMapKey key => s!"map key annotation must be present for {key.canonical}"
  | .accessorCount key found =>
    s!"map key {key.canonical} must declare exactly one value method, found {found}"
  | .typeArguments key found =>
    s!"map key {key.canonical} value type must have at most one type argument, found {found}"

namespace InjectorKey

/-- What a map is keyed by, given the methods of its key type: the return type of the only one, or
its type argument if it has one. Of a wildcard that argument is the bound. -/
def valueTypeOf (key : ClassName) : List MethodElement → Except MalformedKey TypeRef
  | [accessor] =>
    match accessor.returnType.arguments with
    | [] => .ok accessor.returnType
    | [argument] => .ok argument.upperBound
    | arguments => .error (.typeArguments key arguments.length)
  | accessors => .error (.accessorCount key accessors.length)

/-- The injector key of a key type. -/
def ofType (config : Config) (index : DeclarationIndex) (type : TypeRef) :
    Except MalformedKey InjectorKey := do
  let some base := type.rawClass? | throw (.notAClass type)
  if !index.isAnnotated (.type base) config.markers.mapKey then throw (.missingMapKey base)
  let valueType ← valueTypeOf base (((index.type? base).map (·.methods)).getD [])
  return { valueType, base, useStringKeys := config.useStringKeys valueType }

end InjectorKey

/-- The name of the argument in which a registry lists the types of its keys. -/
def keysArgument : String := "keys"

namespace KeyCollection

/-- The key types that a declaration lists. -/
def declaredTypes (config : Config) (index : DeclarationIndex) (element : Element) :
    List TypeRef :=
  match index.annotation? element config.markers.injectorKeyRegistry with
  | some a => a.typeList keysArgument
  | none => []

/-- What becomes of all key types that declarations list: the declaration with the key or the
reason why there is none. -/
def entries (config : Config) (index : DeclarationIndex) (elements : List Element) :
    List (Element × Except MalformedKey InjectorKey) :=
  elements.flatMap fun element =>
    (declaredTypes config index element).map fun type =>
      (element, InjectorKey.ofType config index type)

/-- The keys that declarations list, in their order. -/
def keys (config : Config) (index : DeclarationIndex) (elements : List Element) :
    List InjectorKey :=
  (entries config index elements).filterMap fun (_, result) => result.toOption

/-- The reports on the types listed by declarations that are no key types, in their order. -/
def diagnostics (config : Config) (index : DeclarationIndex) (elements : List Element) :
    List Diagnostic :=
  (entries config index elements).filterMap fun (element, result) =>
    match result with
    | .ok _ => none
    | .error e => some (.error element e.message)

/-- The declarations of an index that list keys. -/
def registries (config : Config) (index : DeclarationIndex) : List Element :=
  index.elementsAnnotatedWith config.markers.injectorKeyRegistry

/-- Inserts the keys that an index declares into a registry. -/
def into (config : Config) (index : DeclarationIndex) (registry : KeyRegistry) : KeyRegistry :=
  registry.extend (keys config index (registries config index))

/-- How many keys a registry gains by those that an index declares. -/
def added (config : Config) (index : DeclarationIndex) (registry : KeyRegistry) : Nat :=
  (into config index registry).size - registry.size

end KeyCollection

end Multibinding
