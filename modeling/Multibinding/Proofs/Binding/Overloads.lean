import Multibinding.Proofs.Round.Plan

/-!
# Overloaded methods

Elements point at methods by name, so that of several methods of one name in a type only the first
one can be looked up. Marked methods are enumerated declaration by declaration, and what is
enumerated is what is looked up exactly if no marked method stands behind another method of its
name. What is resolved is then read off the marked declarations themselves.

* `markedFirst_iff`: when enumeration and look-up agree;
* `ofMethod_eq_ok_iff_of_method?`, `entries_registries`: what is read where they do;
* `enumeration_agrees_iff`: both together;
* `overloaded_sample`: what is read where they do not.
-/

namespace Multibinding

namespace DeclarationIndex

/-- No method with an annotation of a type stands behind another method of its name. -/
def MarkedFirst (index : DeclarationIndex) (marker : ClassName) : Prop :=
  ∀ t ∈ index.types,
    t.methods.Pairwise fun other m => isMarkedBy marker m.annotations → other.name ≠ m.name

instance (index : DeclarationIndex) (marker : ClassName) :
    Decidable (index.MarkedFirst marker) := by
  unfold MarkedFirst
  infer_instance

variable {index : DeclarationIndex} {marker : ClassName}

/-- Types that tell all methods apart by name have no marked method behind another of its name. -/
theorem MethodsDistinct.markedFirst (h : index.MethodsDistinct) (marker : ClassName) :
    index.MarkedFirst marker := by
  intro t ht
  refine (List.pairwise_map.mp (h t ht)).imp ?_
  intro other m hne _
  exact hne

/-- A marked method that stands behind no other of its name is found. -/
theorem MarkedFirst.method? (h : index.MarkedFirst marker) {t : TypeElement}
    (ht : t ∈ index.types) {m : MethodElement} (hm : m ∈ t.methods)
    (hmarked : isMarkedBy marker m.annotations) : index.method? t.name m.name = some m := by
  rw [DeclarationIndex.method?, type?_of_mem ht]
  exact find?_eq_some_of_pairwise (h t ht) hm hmarked

/-- What is looked up for a marked declaration are the annotations on it. -/
theorem MarkedFirst.annotationsOf (h : index.MarkedFirst marker) {element : Element}
    {annotations : List Annotation} (hmem : (element, annotations) ∈ index.declarations)
    (hmarked : isMarkedBy marker annotations) : index.annotationsOf element = annotations :=
  annotationsOf_of_method? hmem fun _ ht _ hm heq => h.method? ht hm (heq ▸ hmarked)

/-- A name of a method is annotated if the first method of the name is. -/
theorem isAnnotated_method_iff {t : TypeElement} (ht : t ∈ index.types) {name : String} :
    index.isAnnotated (.method t.name name) marker ↔
      ∃ m, t.method? name = some m ∧ isMarkedBy marker m.annotations := by
  rw [isAnnotated_eq, DeclarationIndex.annotationsOf, DeclarationIndex.method?, type?_of_mem ht,
    Option.bind_some]
  cases t.method? name <;> simp [isMarkedBy]

/-- Each enumerated element is annotated exactly if the first method of the name of each marked
method is marked. -/
theorem forall_isAnnotated_iff :
    (∀ element ∈ index.elementsAnnotatedWith marker, index.isAnnotated element marker) ↔
      ∀ t ∈ index.types, ∀ m ∈ t.methods, isMarkedBy marker m.annotations →
        ∃ first, t.method? m.name = some first ∧ isMarkedBy marker first.annotations := by
  constructor
  · intro h t ht m hm hmarked
    refine (isAnnotated_method_iff ht).mp (h _ ?_)
    exact method_mem_elementsAnnotatedWith.mpr ⟨t, ht, m, hm, hmarked, rfl, rfl⟩
  · intro h element helement
    cases element with
    | type name =>
      -- A type is looked up under the only name that it has.
      rw [elementsAnnotatedWith_eq, List.mem_map] at helement
      obtain ⟨⟨_, annotations⟩, hmem, rfl⟩ := helement
      obtain ⟨hmem, hmarked⟩ := List.mem_filter.mp hmem
      obtain ⟨t, ht, hmem⟩ := List.mem_flatMap.mp hmem
      obtain ⟨rfl, rfl⟩ : name = t.name ∧ annotations = t.annotations := by simpa using hmem
      exact isAnnotated_type_iff.mpr ⟨t, ht, rfl, hmarked⟩
    | method owner name =>
      obtain ⟨t, ht, m, hm, hmarked, rfl, rfl⟩ := method_mem_elementsAnnotatedWith.mp helement
      exact (isAnnotated_method_iff ht).mpr (h t ht m hm hmarked)

/-- What is enumerated is what is looked up, and no two declarations are enumerated as one, exactly
if no marked method stands behind another of its name. -/
theorem markedFirst_iff :
    index.MarkedFirst marker ↔
      (∀ element ∈ index.elementsAnnotatedWith marker, index.isAnnotated element marker) ∧
        (index.elementsAnnotatedWith marker).Nodup := by
  rw [forall_isAnnotated_iff, nodup_elementsAnnotatedWith_iff, MarkedFirst, ← forall₂_and]
  exact forall₂_congr fun t _ => pairwise_key_ne_iff

end DeclarationIndex

variable {config : Config} {index : DeclarationIndex}

/-- The contribution of a method that returns a class and is bound through a key, read off the
method and the type that it stands in. -/
def Contribution.ofDeclaration (config : Config) (index : DeclarationIndex) (t : TypeElement)
    (m : MethodElement) (target : ClassName) (key : InjectorKey) : Contribution :=
  { container := t.name
    method := m.name
    target
    base := some key.base
    valueType := some key.valueType
    useStringKeys := key.useStringKeys
    modules := (modulesOn config m.annotations).eraseDups
    scopes := (scopesOn config index m.annotations).eraseDupsBy Annotation.sameElement }

/-- The contribution of a method that is found is read off the method and the type. -/
theorem Contribution.ofMethod_eq_ok_iff_of_method? {registry : KeyRegistry} {t : TypeElement}
    (ht : t ∈ index.types) {m : MethodElement} (hfound : index.method? t.name m.name = some m)
    {c : Contribution} :
    ofMethod config index registry t.name m.name = .ok c ↔
      ∃ key target, matchingKey? index registry m.returnType = some key ∧
        isMarkedBy config.markers.module t.annotations ∧
        m.returnType.rawClass? = some target ∧ c = ofDeclaration config index t m target key := by
  rw [ofMethod_eq_ok_iff, hfound, isInModule_of_mem ht]
  simp only [Option.some.injEq, exists_and_left, exists_eq_left', ofKey, ofDeclaration,
    declaredModules_of_method? hfound, metaAnnotated_of_method? hfound]

/-- If no registry stands behind another method of its name, the types that the registries list are
read off the registries themselves. -/
theorem KeyCollection.entries_registries
    (h : index.MarkedFirst config.markers.injectorKeyRegistry) :
    entries config index (registries config index) =
      (index.declarations.filter (isMarkedBy config.markers.injectorKeyRegistry ·.2)).flatMap
        fun d => (listedOn config d.2).map fun type =>
          (d.1, InjectorKey.ofType config index type) := by
  rw [entries, registries, DeclarationIndex.elementsAnnotatedWith_eq, List.flatMap_map]
  refine List.flatMap_congr fun d hd => ?_
  obtain ⟨hmem, hmarked⟩ := List.mem_filter.mp hd
  rw [declaredTypes, DeclarationIndex.annotation?, h.annotationsOf hmem hmarked]
  rfl

/-- Enumeration and look-up agree on a marker, and different declarations are enumerated as
different elements, exactly if no method with the marker stands behind another method of its name.
Then a contribution is read off the very method that is marked as one, and the types listed by
registries are read off the very declarations that are marked as such. -/
theorem enumeration_agrees_iff (config : Config) (index : DeclarationIndex) :
    (∀ marker,
      (∀ element ∈ index.elementsAnnotatedWith marker, index.isAnnotated element marker) ∧
        (index.elementsAnnotatedWith marker).Nodup ↔ index.MarkedFirst marker) ∧
    (index.MarkedFirst config.markers.contributeInjector →
      ∀ (registry : KeyRegistry), ∀ t ∈ index.types, ∀ m ∈ t.methods,
        isMarkedBy config.markers.contributeInjector m.annotations →
        ∀ c, Contribution.ofMethod config index registry t.name m.name = .ok c ↔
          ∃ key target, Contribution.matchingKey? index registry m.returnType = some key ∧
            isMarkedBy config.markers.module t.annotations ∧
            m.returnType.rawClass? = some target ∧
            c = Contribution.ofDeclaration config index t m target key) ∧
    (index.MarkedFirst config.markers.injectorKeyRegistry →
      KeyCollection.entries config index (KeyCollection.registries config index) =
        (index.declarations.filter (isMarkedBy config.markers.injectorKeyRegistry ·.2)).flatMap
          fun d => (KeyCollection.listedOn config d.2).map fun type =>
            (d.1, InjectorKey.ofType config index type)) := by
  refine ⟨fun marker => DeclarationIndex.markedFirst_iff.symm, ?_, KeyCollection.entries_registries⟩
  -- The look-up finds the first method of a name, and this is the one that is marked.
  intro hfirst registry t ht m hm hmarked c
  exact Contribution.ofMethod_eq_ok_iff_of_method? ht (hfirst.method? ht hm hmarked)

/-- In the sample application, no marked method stands behind another of its name, so that the
method that is enumerated is annotated. -/
theorem enumeration_agrees_sample :
    (sampleIndex ["bindWidget"]).MarkedFirst ({} : MarkerNames).contributeInjector ∧
      (sampleIndex ["bindWidget"]).isAnnotated
        (.method ⟨"com.app", "FeatureModule", []⟩ "bindWidget")
        ({} : MarkerNames).contributeInjector := by
  -- No two of its methods have one name, whether they are marked or not.
  have hmethods : (sampleIndex ["bindWidget"]).MethodsDistinct := by decide
  have hfirst := hmethods.markedFirst ({} : MarkerNames).contributeInjector
  have hagree := (enumeration_agrees_iff {} (sampleIndex ["bindWidget"])).1
    ({} : MarkerNames).contributeInjector
  exact ⟨hfirst, (hagree.mpr hfirst).1 _ (by decide)⟩

/-- The sample application with an overload of its method in front of it, which contributes nothing
and returns the base class of the key. -/
def overloadedIndex : DeclarationIndex :=
  (sampleIndex ["bindWidget"]).put {
    name := ⟨"com.app", "FeatureModule", []⟩
    kind := .plain
    annotations := [⟨({} : MarkerNames).module, []⟩]
    supertypes := []
    methods := [
      ⟨"bindWidget", .declared ⟨"com.app", "Injectable", []⟩, []⟩,
      ⟨"bindWidget", .declared ⟨"com.app", "Widget", []⟩,
        [⟨({} : MarkerNames).contributeInjector, []⟩]⟩ ] }

/-- The element that is enumerated for the marked method is not annotated, and what is bound is not
the class that the marked method returns, but the one that the overload does. -/
theorem overloaded_sample :
    overloadedIndex.elementsAnnotatedWith ({} : MarkerNames).contributeInjector =
        [.method ⟨"com.app", "FeatureModule", []⟩ "bindWidget"] ∧
      overloadedIndex.isAnnotated (.method ⟨"com.app", "FeatureModule", []⟩ "bindWidget")
        ({} : MarkerNames).contributeInjector = false ∧
      ((Processor.ofConfig {}).plan overloadedIndex).contributions.map (·.target) =
        [⟨"com.app", "Injectable", []⟩] := by
  refine ⟨by decide +kernel, by decide +kernel, by decide +kernel⟩

end Multibinding
