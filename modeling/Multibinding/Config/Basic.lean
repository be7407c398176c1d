import Multibinding.Name.TypeRef

/-!
# The configuration of a run

A configuration says which annotations mark what, which framework types generated code refers to,
how keys are written, and what is generated besides the modules of the contributions. Every part
has a default.
-/

namespace Multibinding

/-- The annotations that mark declarations. -/
structure MarkerNames where
  /-- Marks a declaration that lists injector keys. -/
  injectorKeyRegistry : ClassName := ⟨"com.ivianuu.contributor", "InjectorKeyRegistry", []⟩
  /-- Marks a method that contributes an injector. -/
  contributeInjector : ClassName := ⟨"com.ivianuu.contributor", "ContributeInjector", []⟩
  /-- Marks a module. -/
  module : ClassName := ⟨"dagger", "Module", []⟩
  /-- Marks the type of a map key. -/
  mapKey : ClassName := ⟨"dagger", "MapKey", []⟩
  /-- Marks the type of a scope. -/
  scope : ClassName := ⟨"javax.inject", "Scope", []⟩
deriving DecidableEq

/-- The framework types that generated code refers to. -/
structure FrameworkNames where
  /-- The annotation of a module. -/
  module : ClassName := ⟨"dagger", "Module", []⟩
  /-- The annotation of a subcomponent. -/
  subcomponent : ClassName := ⟨"dagger", "Subcomponent", []⟩
  /-- The annotation of the builder of a subcomponent. -/
  subcomponentBuilder : ClassName := ⟨"dagger", "Subcomponent", ["Builder"]⟩
  /-- The annotation of a binding method. -/
  binds : ClassName := ⟨"dagger", "Binds", []⟩
  /-- The annotation of what goes into a map. -/
  intoMap : ClassName := ⟨"dagger.multibindings", "IntoMap", []⟩
  /-- The annotation of a map that may be empty. -/
  multibinds : ClassName := ⟨"dagger.multibindings", "Multibinds", []⟩
  /-- The annotation of a key that is a class. -/
  classKey : ClassName := ⟨"dagger.multibindings", "ClassKey", []⟩
  /-- The annotation of a key that is a string. -/
  stringKey : ClassName := ⟨"dagger.android", "AndroidInjectionKey", []⟩
  /-- The injector of a type. -/
  injector : ClassName := ⟨"dagger.android", "AndroidInjector", []⟩
  /-- The factory of an injector. -/
  injectorFactory : ClassName := ⟨"dagger.android", "AndroidInjector", ["Factory"]⟩
  /-- The builder of an injector. -/
  injectorBuilder : ClassName := ⟨"dagger.android", "AndroidInjector", ["Builder"]⟩
deriving DecidableEq

/-- A field that holds a class name, in a record of such fields. -/
structure NameField (σ : Type) where
  /-- The name of the field in a configuration text. -/
  name : String
  /-- The class name that the field holds. -/
  get : σ → ClassName
  /-- The record with another class name in the field. -/
  set : σ → ClassName → σ

/-- The fields of the markers in their order. -/
def MarkerNames.fields : List (NameField MarkerNames) :=
  [ ⟨"injector_key_registry", (·.injectorKeyRegistry),
      fun s c => { s with injectorKeyRegistry := c }⟩,
    ⟨"contribute_injector", (·.contributeInjector), fun s c => { s with contributeInjector := c }⟩,
    ⟨"module", (·.module), fun s c => { s with module := c }⟩,
    ⟨"map_key", (·.mapKey), fun s c => { s with mapKey := c }⟩,
    ⟨"scope", (·.scope), fun s c => { s with scope := c }⟩ ]

/-- The fields of the framework types in their order. -/
def FrameworkNames.fields : List (NameField FrameworkNames) :=
  [ ⟨"module", (·.module), fun s c => { s with module := c }⟩,
    ⟨"subcomponent", (·.subcomponent), fun s c => { s with subcomponent := c }⟩,
    ⟨"subcomponent_builder", (·.subcomponentBuilder),
      fun s c => { s with subcomponentBuilder := c }⟩,
    ⟨"binds", (·.binds), fun s c => { s with binds := c }⟩,
    ⟨"into_map", (·.intoMap), fun s c => { s with intoMap := c }⟩,
    ⟨"multibinds", (·.multibinds), fun s c => { s with multibinds := c }⟩,
    ⟨"class_key", (·.classKey), fun s c => { s with classKey := c }⟩,
    ⟨"string_key", (·.stringKey), fun s c => { s with stringKey := c }⟩,
    ⟨"injector", (·.injector), fun s c => { s with injector := c }⟩,
    ⟨"injector_factory", (·.injectorFactory), fun s c => { s with injectorFactory := c }⟩,
    ⟨"injector_builder", (·.injectorBuilder), fun s c => { s with injectorBuilder := c }⟩ ]

/-- How the map keys of bindings are written. -/
inductive KeyStyle where
  /-- As strings exactly where the map is keyed by a string type. -/
  | auto
  /-- Always as strings. -/
  | string
  /-- Always as classes. -/
  | byClass
deriving DecidableEq

namespace KeyStyle

/-- The name of a key style. -/
def name : KeyStyle → String
  | .auto => "auto"
  | .string => "string"
  | .byClass => "class"

/-- All key styles in their order. -/
def all : List KeyStyle :=
  [.auto, .string, .byClass]

end KeyStyle

/-- What becomes of the registered keys when another round begins. -/
inductive RegistryMode where
  /-- They are forgotten. -/
  | rebuild
  /-- They are kept. -/
  | merge
deriving DecidableEq

namespace RegistryMode

/-- The name of a registry mode. -/
def name : RegistryMode → String
  | .rebuild => "rebuild"
  | .merge => "merge"

/-- All registry modes in their order. -/
def all : List RegistryMode :=
  [.rebuild, .merge]

end RegistryMode

/-- The configuration of a run. -/
structure Config where
  /-- The annotations that mark declarations. -/
  markers : MarkerNames := {}
  /-- The framework types that generated code refers to. -/
  framework : FrameworkNames := {}
  /-- How map keys are written. -/
  keyStyle : KeyStyle := .auto
  /-- The canonical names of the types that count as strings. -/
  stringKeyTypes : List String := ["java.lang.String", "kotlin.String", "String"]
  /-- What becomes of registered keys between rounds. -/
  registryMode : RegistryMode := .rebuild
  /-- The directory that generated files go to. -/
  outputDir : Option String := none
  /-- The module to generate once that declares the empty injector maps. -/
  injectionModule : Option ClassName := none
  /-- The comment at the head of generated files. -/
  fileComment : Option String := some "Generated by contributor. Do not edit."
deriving DecidableEq

/-- Why a configuration cannot be used. -/
inductive ConfigDefect where
  /-- One annotation marks both registries and contributions. -/
  | sameMarker (name : ClassName)
  /-- String types decide on the keys, but there are none. -/
  | noStringTypes
deriving DecidableEq

/-- The wording of a defect. -/
def ConfigDefect.message : ConfigDefect → String
  | .sameMarker name => "注入键注册表标记与贡献标记不能相同: " ++ name.canonical
  | .noStringTypes => "auto 键模式需要至少一个字符串类型"

namespace Config

/-- The first defect of a configuration. -/
def defect? (c : Config) : Option ConfigDefect :=
  if c.markers.injectorKeyRegistry = c.markers.contributeInjector then
    some (.sameMarker c.markers.contributeInjector)
  else if c.keyStyle = .auto ∧ c.stringKeyTypes = [] then some .noStringTypes
  else none

/-- Whether a binding is keyed by a string, given the type that its map is keyed by. -/
def useStringKeys (c : Config) (keyType : TypeRef) : Bool :=
  match c.keyStyle with
  | .string => true
  | .byClass => false
  | .auto => keyType.rawClass?.any fun raw => c.stringKeyTypes.contains raw.canonical

end Config

end Multibinding
