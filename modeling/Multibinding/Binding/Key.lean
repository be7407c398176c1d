import Multibinding.Name.TypeRef

/-!
# Injector keys

An injector key is a slot of a map of injectors: the type that the map is keyed by together with the
base class of the types that are injected through it. The registry keeps keys in the order in which
they were inserted and each of them once.
-/

namespace Multibinding

/-- A slot of a map of injectors. -/
structure InjectorKey where
  /-- The type that the map is keyed by. -/
  valueType : TypeRef
  /-- The base class of what is injected. -/
  base : ClassName
  /-- Whether entries of the map are keyed by strings. -/
  useStringKeys : Bool
deriving DecidableEq

/-- The keys that have been registered. -/
structure KeyRegistry where
  /-- The keys in the order in which they were inserted. -/
  keys : List InjectorKey
deriving DecidableEq

namespace KeyRegistry

/-- The registry without keys. -/
def empty : KeyRegistry := ⟨[]⟩

/-- Whether a key is registered. -/
def contains (registry : KeyRegistry) (key : InjectorKey) : Bool :=
  registry.keys.contains key

/-- Inserts a key behind the others, unless it is registered already. -/
def insert (registry : KeyRegistry) (key : InjectorKey) : KeyRegistry :=
  if registry.contains key then registry else ⟨registry.keys ++ [key]⟩

/-- Inserts several keys in their order. -/
def extend (registry : KeyRegistry) (keys : List InjectorKey) : KeyRegistry :=
  keys.foldl insert registry

/-- The registry of several keys. -/
def ofList (keys : List InjectorKey) : KeyRegistry :=
  empty.extend keys

/-- The first key that satisfies a predicate. -/
def firstMatch? (registry : KeyRegistry) (p : InjectorKey → Bool) : Option InjectorKey :=
  registry.keys.find? p

/-- How many keys are registered. -/
def size (registry : KeyRegistry) : Nat :=
  registry.keys.length

end KeyRegistry

end Multibinding
