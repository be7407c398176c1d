import Multibinding.Proofs.Declaration.Agreement
import Multibinding.Proofs.Pointwise
import Multibinding.Proofs.Round.Plan

/-!
# Arguments that are not read

Of all annotation arguments, a round reads the keys that a registry lists, the further modules that
a contribution lists, and those of scopes, which are copied. Two indexes read alike if they differ
in other arguments at most. Rounds over them do exactly the same.

* `annotationsOf_forall₂`, `annotation?_cases`: what is looked up reads alike;
* `declaredTypes_congr`, `declaredModules_congr`, `metaAnnotated_congr`: so the same is read of it;
* `plan_eq_of_readsAlike`, `round_of_readsAlike`: what a round does.
-/

namespace Multibinding

/-- Two annotations, the first of them in an index, differ at most in arguments that are not
read. -/
structure Annotation.ReadsAlike (config : Config) (index : DeclarationIndex) (a b : Annotation) :
    Prop where
  type : b.type = a.type
  /-- Registries list the same keys. -/
  keys : a.type = config.markers.injectorKeyRegistry →
    b.value? keysArgument = a.value? keysArgument
  /-- Contributions list the same further modules. -/
  modules : a.type = config.markers.contributeInjector →
    b.value? modulesArgument = a.value? modulesArgument
  /-- Scopes have the same arguments. -/
  scope : index.isAnnotated (.type a.type) config.markers.scope → b.values = a.values

/-- Two methods differ at most in arguments that are not read. -/
structure MethodElement.ReadsAlike (config : Config) (index : DeclarationIndex)
    (m n : MethodElement) : Prop where
  name : n.name = m.name
  returnType : n.returnType = m.returnType
  annotations : List.Forall₂ (fun a b => a.ReadsAlike config index b) m.annotations n.annotations

/-- Two types differ at most in arguments that are not read. -/
structure TypeElement.ReadsAlike (config : Config) (index : DeclarationIndex) (t u : TypeElement) :
    Prop where
  name : u.name = t.name
  kind : u.kind = t.kind
  annotations : List.Forall₂ (fun a b => a.ReadsAlike config index b) t.annotations u.annotations
  supertypes : u.supertypes = t.supertypes
  methods : List.Forall₂ (fun m n => m.ReadsAlike config index n) t.methods u.methods

/-- Two indexes declare the same types in the same order, and differ at most in arguments that are
not read. -/
def DeclarationIndex.ReadsAlike (config : Config) (index other : DeclarationIndex) : Prop :=
  List.Forall₂ (fun t u => t.ReadsAlike config index u) index.types other.types

/-- Annotations that read alike carry the same markers. -/
theorem isMarkedBy_of_readsAlike {config : Config} {index : DeclarationIndex}
    {annotations others : List Annotation}
    (h : List.Forall₂ (fun a b => a.ReadsAlike config index b) annotations others)
    (marker : ClassName) : isMarkedBy marker others = isMarkedBy marker annotations := by
  have htypes : annotations.map (·.type) = others.map (·.type) :=
    map_eq_map_of_forall₂ h fun a b hab => hab.type.symm
  have hmarked : ∀ list : List Annotation,
      isMarkedBy marker list = (list.map (·.type)).any (· == marker) := by
    intro list
    rw [isMarkedBy, List.any_map]
    rfl
  rw [hmarked, hmarked, htypes]

namespace DeclarationIndex.ReadsAlike

variable {config : Config} {index other : DeclarationIndex} (h : index.ReadsAlike config other)
include h

/-- Of each name, neither index has a type, or both have types that read alike. -/
theorem type?_cases (name : ClassName) :
    (index.type? name = none ∧ other.type? name = none) ∨
      ∃ t u, index.type? name = some t ∧ other.type? name = some u ∧
        t.ReadsAlike config index u :=
  find?_of_forall₂ h fun t u htu => by rw [htu.name]

/-- Of each name, neither index has a method, or both have methods that read alike. -/
theorem method?_cases (owner : ClassName) (name : String) :
    (index.method? owner name = none ∧ other.method? owner name = none) ∨
      ∃ m n, index.method? owner name = some m ∧ other.method? owner name = some n ∧
        m.ReadsAlike config index n := by
  rw [method?, method?]
  rcases h.type?_cases owner with ⟨ht, hu⟩ | ⟨t, u, ht, hu, htu⟩
  · rw [ht, hu]
    exact Or.inl ⟨rfl, rfl⟩
  · rw [ht, hu]
    exact find?_of_forall₂ htu.methods fun m n hmn => by rw [hmn.name]

/-- The annotations on an element read alike. -/
theorem annotationsOf_forall₂ (element : Element) :
    List.Forall₂ (fun a b => a.ReadsAlike config index b) (index.annotationsOf element)
      (other.annotationsOf element) := by
  cases element with
  | type name =>
    rw [annotationsOf, annotationsOf]
    rcases h.type?_cases name with ⟨ht, hu⟩ | ⟨t, u, ht, hu, htu⟩
    · rw [ht, hu]
      exact .nil
    · rw [ht, hu]
      exact htu.annotations
  | method owner name =>
    rw [annotationsOf, annotationsOf]
    rcases h.method?_cases owner name with ⟨hm, hn⟩ | ⟨m, n, hm, hn, hmn⟩
    · rw [hm, hn]
      exact .nil
    · rw [hm, hn]
      exact hmn.annotations

/-- An element has no annotation of a type in both indexes, or first ones that read alike. -/
theorem annotation?_cases (element : Element) (marker : ClassName) :
    (index.annotation? element marker = none ∧ other.annotation? element marker = none) ∨
      ∃ a b, index.annotation? element marker = some a ∧
        other.annotation? element marker = some b ∧ a.type = marker ∧
        a.ReadsAlike config index b := by
  refine (find?_of_forall₂ (h.annotationsOf_forall₂ element) fun a b hab => by
    rw [hab.type]).imp_right ?_
  rintro ⟨a, b, ha, hb, hab⟩
  exact ⟨a, b, ha, hb, by simpa using List.find?_some ha, hab⟩

/-- The same elements are annotated. -/
theorem isAnnotated_congr (element : Element) (marker : ClassName) :
    other.isAnnotated element marker = index.isAnnotated element marker := by
  rw [isAnnotated_eq, isAnnotated_eq, isMarkedBy_of_readsAlike (h.annotationsOf_forall₂ element)]

/-- The same elements are enumerated. -/
theorem elementsAnnotatedWith_congr (marker : ClassName) :
    other.elementsAnnotatedWith marker = index.elementsAnnotatedWith marker := by
  refine (flatMap_eq_flatMap_of_forall₂ h fun t u htu => ?_).symm
  have hmethods : List.Forall₂ (fun m n => m.ReadsAlike config index n)
      (t.methods.filter (isMarkedBy marker ·.annotations))
      (u.methods.filter (isMarkedBy marker ·.annotations)) := by
    refine List.rel_filter ?_ htu.methods
    intro m n hmn
    show isMarkedBy marker m.annotations = true ↔ isMarkedBy marker n.annotations = true
    rw [isMarkedBy_of_readsAlike hmn.annotations]
  rw [isMarkedBy_of_readsAlike htu.annotations, htu.name]
  exact congrArg _ (map_eq_map_of_forall₂ hmethods fun m n hmn => by rw [hmn.name])

/-- The classes named as direct supertypes are the same. -/
theorem directSupertypes_congr (name : ClassName) :
    other.directSupertypes name = index.directSupertypes name := by
  rw [directSupertypes, directSupertypes]
  rcases h.type?_cases name with ⟨ht, hu⟩ | ⟨t, u, ht, hu, htu⟩
  · rw [ht, hu]
  · simp only [ht, hu, htu.supertypes]

/-- A method returns the same. -/
theorem returnType_congr (owner : ClassName) (name : String) :
    (other.method? owner name).map (·.returnType) =
      (index.method? owner name).map (·.returnType) := by
  rcases h.method?_cases owner name with ⟨hm, hn⟩ | ⟨m, n, hm, hn, hmn⟩
  · rw [hm, hn]
  · rw [hm, hn, Option.map_some, Option.map_some, hmn.returnType]

/-- The methods of a type return the same. -/
theorem map_returnType_congr (name : ClassName) :
    (((other.type? name).map (·.methods)).getD []).map (·.returnType) =
      (((index.type? name).map (·.methods)).getD []).map (·.returnType) := by
  rcases h.type?_cases name with ⟨ht, hu⟩ | ⟨t, u, ht, hu, htu⟩
  · rw [ht, hu]
  · rw [ht, hu]
    exact (map_eq_map_of_forall₂ htu.methods fun m n hmn => hmn.returnType.symm).symm

/-- The annotations that are scopes are the same. -/
theorem metaAnnotated_congr (element : Element) :
    other.metaAnnotated element config.markers.scope =
      index.metaAnnotated element config.markers.scope := by
  rw [metaAnnotated, metaAnnotated]
  refine (filter_eq_filter_of_forall₂ (h.annotationsOf_forall₂ element) ?_ ?_).symm
  · intro a b hab
    rw [h.isAnnotated_congr, hab.type]
  · intro a b hab hscope
    -- Scopes are copied as they are, so here all arguments have to agree.
    have hvalues := hab.scope hscope
    have htype := hab.type
    cases a
    cases b
    cases htype
    cases hvalues
    rfl

/-- The same types are listed in registries. -/
theorem declaredTypes_congr (element : Element) :
    KeyCollection.declaredTypes config other element =
      KeyCollection.declaredTypes config index element := by
  rw [KeyCollection.declaredTypes, KeyCollection.declaredTypes]
  rcases h.annotation?_cases element config.markers.injectorKeyRegistry with
    ⟨ha, hb⟩ | ⟨a, b, ha, hb, hmarker, hab⟩
  · rw [ha, hb]
  · simp only [ha, hb, Annotation.typeList, hab.keys hmarker]

/-- The same further modules are listed in contributions. -/
theorem declaredModules_congr (element : Element) :
    Contribution.declaredModules config other element =
      Contribution.declaredModules config index element := by
  rw [Contribution.declaredModules, Contribution.declaredModules]
  rcases h.annotation?_cases element config.markers.contributeInjector with
    ⟨ha, hb⟩ | ⟨a, b, ha, hb, hmarker, hab⟩
  · rw [ha, hb]
  · simp only [ha, hb, Annotation.typeList, hab.modules hmarker]

/-- The same becomes of the types that registries list. -/
theorem entries_congr :
    KeyCollection.entries config other (KeyCollection.registries config other) =
      KeyCollection.entries config index (KeyCollection.registries config index) := by
  rw [KeyCollection.registries, KeyCollection.registries, h.elementsAnnotatedWith_congr]
  refine List.flatMap_congr fun element _ => ?_
  rw [h.declaredTypes_congr]
  refine List.map_congr_left fun type _ => ?_
  rw [InjectorKey.ofType_eq_of_reads (fun base => h.isAnnotated_congr (.type base) _)
    fun base _ _ => h.map_returnType_congr base]

/-- The same becomes of the contributions. -/
theorem resolutions_congr (registry : KeyRegistry) :
    Contribution.resolutions config other registry =
      Contribution.resolutions config index registry := by
  rw [Contribution.resolutions, Contribution.resolutions, h.elementsAnnotatedWith_congr]
  refine List.filterMap_congr fun element _ => ?_
  refine Contribution.ofElement?_eq_of_ofMethod fun owner name _ => ?_
  refine Contribution.ofMethod_eq_of_reads registry (h.returnType_congr owner name)
    h.directSupertypes_congr ?_ (h.declaredModules_congr _) (h.metaAnnotated_congr _)
  rw [Contribution.isInModule_method, Contribution.isInModule_method, h.isAnnotated_congr]

end DeclarationIndex.ReadsAlike

/-- Rounds over indexes that read alike have the same plan. -/
theorem Processor.plan_eq_of_readsAlike {p : Processor} {index other : DeclarationIndex}
    (h : index.ReadsAlike p.config other) : p.plan other = p.plan index := by
  rw [plan_eq_of_entries h.entries_congr, h.resolutions_congr, plan_eq]

/-- Rounds of one session over two indexes that declare the same, apart from annotation arguments
other than the keys of registries, the further modules of contributions and those of scopes. They
have the same outcome and leave the session with the same registry, the same reports and the same
state of the filer, to which they have handed the same files with the same answers. -/
theorem round_of_readsAlike {σ : Type} (write : Filer (StateM σ)) (s : Session σ)
    {index other : DeclarationIndex}
    (h : index.ReadsAlike s.processor.config other) :
    s.round write other = s.round write index ∧
      s.handed write [other] = s.handed write [index] := by
  have hplan := Processor.plan_eq_of_readsAlike h
  constructor
  · rw [Session.round_eq, Session.round_eq, hplan]
  · rw [Session.handed_singleton, Session.handed_singleton, hplan]

section Sample

theorem Annotation.ReadsAlike.refl (config : Config) (index : DeclarationIndex) (a : Annotation) :
    ReadsAlike config index a a :=
  ⟨rfl, fun _ => rfl, fun _ => rfl, fun _ => rfl⟩

theorem TypeElement.ReadsAlike.refl (config : Config) (index : DeclarationIndex) (t : TypeElement) :
    ReadsAlike config index t t where
  name := rfl
  kind := rfl
  annotations := List.forall₂_same.mpr fun a _ => .refl config index a
  supertypes := rfl
  methods := List.forall₂_same.mpr fun _ _ =>
    ⟨rfl, rfl, List.forall₂_same.mpr fun a _ => .refl config index a⟩

/-- The sample application with a contribution that lists a further module and has a priority. -/
def priorityIndex (priority : AnnotationValue) : DeclarationIndex :=
  (sampleIndex []).put {
    name := ⟨"com.app", "FeatureModule", []⟩
    kind := .plain
    annotations := [⟨({} : MarkerNames).module, []⟩]
    supertypes := []
    methods := [⟨"bindWidget", .declared ⟨"com.app", "Widget", []⟩,
      [⟨({} : MarkerNames).contributeInjector,
        [(modulesArgument, .typeList [.declared ⟨"com.app", "Extra", []⟩]),
          ("priority", priority)]⟩]⟩] }

/-- The priority is not read, so that with another one the same module is made. -/
theorem round_of_readsAlike_sample :
    let s := Session.start {} MemoryFiler.empty
    let index := priorityIndex (.int 1)
    let other := priorityIndex (.string "high")
    index.ReadsAlike {} other ∧
      s.round MemoryFiler.write other = s.round MemoryFiler.write index ∧
      (s.round MemoryFiler.write index).1.generated =
        [⟨"com.app", "FeatureModule_BindWidget", []⟩,
          ⟨"com.app", "FeatureModule_Contributions", []⟩] := by
  intro s index other
  have halike : index.ReadsAlike {} other := by
    have hrefl := TypeElement.ReadsAlike.refl {} index
    refine .cons (hrefl _) (.cons (hrefl _) (.cons (hrefl _) (.cons ?_ .nil)))
    refine ⟨rfl, rfl, List.forall₂_same.mpr fun a _ => .refl {} index a, rfl, .cons ?_ .nil⟩
    -- The annotation that has the priority is no registry and no scope, and lists the same modules.
    exact ⟨rfl, rfl, .cons ⟨rfl, fun h => absurd h (by decide), fun _ => rfl,
      fun h => absurd h (by decide +kernel)⟩ .nil⟩
  exact ⟨halike, (round_of_readsAlike MemoryFiler.write s halike).1, by decide +kernel⟩

end Sample

end Multibinding
