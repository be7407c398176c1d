import Multibinding.Proofs.Binding.Members
import Multibinding.Proofs.Round.Plan

/-!
# Resolution in a round

Which methods a round makes modules for, and what these modules say. Both are said of the
declarations alone: the keys are those that the declarations list, in the order in which they list
them, and a processor that rebuilds its registry has forgotten all others.

* `resolve?_eq_some_iff_describes`: what a method is resolved to is what describes it;
* `mem_contributions_plan_iff`: the contributions of a round are those that can be described;
* `handed_contributions`: what a round hands over for them.
-/

namespace Multibinding

variable {index : DeclarationIndex}

/-- Where the registry holds the keys of the index alone, a declared method is resolved to the
contribution that can be described. -/
theorem Contribution.resolve?_eq_some_iff_describes {config : Config}
    (hmethods : index.MethodsDistinct) {t : TypeElement} (ht : t ∈ index.types) {m : MethodElement}
    (hm : m ∈ t.methods) {c : Contribution} :
    resolve? config index (KeyCollection.into config index .empty) (.method t.name m.name) =
        some c ↔ Describes config index t m c := by
  rw [resolve?_method_eq_some_iff, describes_iff hmethods ht hm]

namespace Processor

variable {p : Processor}

/-- The contributions of a round are those that describe a marked method. -/
theorem mem_contributions_plan_iff (hmode : p.config.registryMode = .rebuild)
    (hmethods : index.MethodsDistinct) {c : Contribution} :
    c ∈ (p.plan index).contributions ↔
      ∃ t ∈ index.types, ∃ m ∈ t.methods,
        isMarkedBy p.config.markers.contributeInjector m.annotations ∧
        Contribution.Describes p.config index t m c := by
  rw [contributions_plan, nextRegistry_of_rebuild hmode, List.mem_filterMap]
  constructor
  -- A contribution tells the element that it is resolved from.
  · rintro ⟨element, helement, hresolve⟩
    obtain rfl : c.element = element := Contribution.element_of_resolve? hresolve
    obtain ⟨t, ht, m, hm, hmarked, htype, hmethod⟩ :=
      DeclarationIndex.method_mem_elementsAnnotatedWith.mp helement
    refine ⟨t, ht, m, hm, hmarked, ?_⟩
    rw [← Contribution.resolve?_eq_some_iff_describes hmethods ht hm, htype, hmethod]
    exact hresolve
  · rintro ⟨t, ht, m, hm, hmarked, hdescribes⟩
    refine ⟨.method t.name m.name, ?_, ?_⟩
    · exact DeclarationIndex.method_mem_elementsAnnotatedWith.mpr
        ⟨t, ht, m, hm, hmarked, rfl, rfl⟩
    · exact (Contribution.resolve?_eq_some_iff_describes hmethods ht hm).mpr hdescribes

/-- A marked method contributes exactly if a listed key is for its return type, it stands in a
module, and its return type names a class. -/
theorem exists_mem_contributions_plan_iff (hmode : p.config.registryMode = .rebuild)
    (hmethods : index.MethodsDistinct) {t : TypeElement} (ht : t ∈ index.types)
    {m : MethodElement} (hm : m ∈ t.methods)
    (hmarked : isMarkedBy p.config.markers.contributeInjector m.annotations) :
    (∃ c ∈ (p.plan index).contributions, c.element = .method t.name m.name) ↔
      (∃ type ∈ KeyCollection.listed p.config index, ∃ key, IsKeyOf p.config index type key ∧
        index.isAssignable m.returnType (.declared key.base)) ∧
      isMarkedBy p.config.markers.module t.annotations ∧
      ∃ target, m.returnType.rawClass? = some target := by
  rw [← Contribution.exists_describes_iff hmethods ht hm]
  constructor
  · rintro ⟨c, hc, helement⟩
    obtain ⟨t', ht', m', hm', -, hdescribes⟩ :=
      (mem_contributions_plan_iff hmode hmethods).mp hc
    rw [Contribution.element, hdescribes.container, hdescribes.method] at helement
    obtain ⟨htype, hmethod⟩ := Element.method.inj helement
    -- The names tell which declarations these are.
    obtain rfl := DeclarationIndex.eq_of_name_eq ht' ht htype
    obtain rfl := List.inj_on_of_nodup_map (hmethods t' ht') hm' hm hmethod
    exact ⟨c, hdescribes⟩
  · rintro ⟨c, hdescribes⟩
    refine ⟨c, (mem_contributions_plan_iff hmode hmethods).mpr ⟨t, ht, m, hm, hmarked, hdescribes⟩,
      ?_⟩
    rw [Contribution.element, hdescribes.container, hdescribes.method]

end Processor

/-- A round of a processor that rebuilds its registry hands over one module for each marked method
that a listed key is for, that stands in a module and whose return type names a class. The modules
come in the order of the methods and before all other files. Each says what its method, the type
that the method stands in and the first key for its return type say, and has a subcomponent with the
further modules and the scopes. -/
theorem handed_contributions {σ : Type} (write : Filer (StateM σ)) (s : Session σ)
    (index : DeclarationIndex) (hmode : s.processor.config.registryMode = .rebuild)
    (hmethods : index.MethodsDistinct) :
    let config := s.processor.config
    let marked := index.elementsAnnotatedWith config.markers.contributeInjector
    ∃ contributions : List Contribution,
      (s.handed write [index]).map (·.1) =
        contributions.map (·.file config) ++
          (AggregateModule.ofContributions? contributions).toList.map (·.file config) ++
            s.processor.injectionModule?.toList.map (InjectionModule.file config) ∧
      (contributions.map Contribution.element).Sublist marked ∧
      (contributions.map Contribution.element).Nodup ∧
      (∀ t ∈ index.types, ∀ m ∈ t.methods,
        isMarkedBy config.markers.contributeInjector m.annotations →
        ((∃ c ∈ contributions, c.element = .method t.name m.name) ↔
          (∃ type ∈ KeyCollection.listed config index, ∃ key, IsKeyOf config index type key ∧
            index.isAssignable m.returnType (.declared key.base)) ∧
          isMarkedBy config.markers.module t.annotations ∧
          ∃ target, m.returnType.rawClass? = some target)) ∧
      ∀ c ∈ contributions,
        (∃ t ∈ index.types, ∃ m ∈ t.methods,
          isMarkedBy config.markers.contributeInjector m.annotations ∧
          Contribution.Describes config index t m c) ∧
        ∃ subcomponent, (c.file config).type.types = [subcomponent] ∧
          subcomponent.annotations =
            { type := config.framework.subcomponent
              members :=
                if c.modules = [] then [] else [("modules", c.modules.map classMember)] } ::
            c.scopes.map Java.AnnotationUse.ofAnnotation := by
  intro config marked
  -- Each marked method is gone through once, so that no two contributions come from one.
  have hsublist := s.processor.map_element_contributions_sublist index
  refine ⟨(s.processor.plan index).contributions, s.map_fst_handed_singleton write index, hsublist,
    hsublist.nodup (DeclarationIndex.nodup_elementsAnnotatedWith hmethods _), ?_, ?_⟩
  · intro t ht m hm hmarked
    exact Processor.exists_mem_contributions_plan_iff hmode hmethods ht hm hmarked
  · intro c hc
    exact ⟨(Processor.mem_contributions_plan_iff hmode hmethods).mp hc,
      c.subcomponentDecl config.framework, rfl, c.annotations_subcomponentDecl config.framework⟩

section Overlapping

/-- A module that contributes a widget and a gadget. -/
def overlappingModule : TypeElement :=
  let markers : MarkerNames := {}
  let contributed : List Annotation := [⟨markers.contributeInjector, []⟩]
  { name := ⟨"com.app", "FeatureModule", []⟩
    kind := .plain
    annotations := [⟨markers.module, []⟩]
    supertypes := []
    methods := [
      ⟨"bindWidget", .declared ⟨"com.app", "Widget", []⟩, contributed⟩,
      ⟨"bindGadget", .declared ⟨"com.app", "Gadget", []⟩, contributed⟩] }

/-- The types of an application with that module and with two keys, whose base classes overlap:
widgets are for both keys, and gadgets are only for the one that is listed last. -/
def overlappingTypes : List TypeElement :=
  let injectable : ClassName := ⟨"com.app", "Injectable", []⟩
  let view : ClassName := ⟨"com.app", "View", []⟩
  let viewClass : TypeRef := .parameterized ⟨"java.lang", "Class", []⟩ [.subtypeOf (.declared view)]
  let markers : MarkerNames := {}
  let listed : List TypeRef := [.declared view, .declared injectable]
  [ { name := injectable
      kind := .annotationType
      annotations := [⟨markers.mapKey, []⟩]
      supertypes := []
      methods := [⟨"value", .declared .string, []⟩] },
    { name := view
      kind := .annotationType
      annotations := [⟨markers.mapKey, []⟩]
      supertypes := []
      methods := [⟨"value", viewClass, []⟩] },
    { name := ⟨"com.app", "InjectorKeys", []⟩
      kind := .plain
      annotations := [⟨markers.injectorKeyRegistry, [(keysArgument, .typeList listed)]⟩]
      supertypes := []
      methods := [] },
    { name := ⟨"com.app", "Widget", []⟩
      kind := .plain
      annotations := []
      supertypes := [.declared injectable, .declared view]
      methods := [] },
    { name := ⟨"com.app", "Gadget", []⟩
      kind := .plain
      annotations := []
      supertypes := [.declared injectable]
      methods := [] },
    overlappingModule ]

/-- The index of the types of the application. -/
def overlappingIndex : DeclarationIndex where
  types := overlappingTypes
  nodup := by simp [overlappingTypes, overlappingModule]

/-- The contribution of the widget, which is bound through the key for views. -/
def widgetContribution : Contribution :=
  { container := ⟨"com.app", "FeatureModule", []⟩
    method := "bindWidget"
    target := ⟨"com.app", "Widget", []⟩
    base := some ⟨"com.app", "View", []⟩
    valueType := some (.declared ⟨"com.app", "View", []⟩) }

/-- The contribution of the gadget, which is bound through the other key. -/
def gadgetContribution : Contribution :=
  { container := ⟨"com.app", "FeatureModule", []⟩
    method := "bindGadget"
    target := ⟨"com.app", "Gadget", []⟩
    base := some ⟨"com.app", "Injectable", []⟩
    valueType := some (.declared .string)
    useStringKeys := true }

/-- Either is what its method is resolved to. -/
theorem map_resolve?_overlapping :
    (overlappingIndex.elementsAnnotatedWith ({} : MarkerNames).contributeInjector).map
        (Contribution.resolve? {} overlappingIndex
          (KeyCollection.into {} overlappingIndex .empty)) =
      [some widgetContribution, some gadgetContribution] := by
  have hwidget : Contribution.ofMethod {} overlappingIndex
      (KeyCollection.into {} overlappingIndex .empty) ⟨"com.app", "FeatureModule", []⟩
      "bindWidget" = .ok widgetContribution :=
    Contribution.ofMethod_eq_ok_iff.mpr
      ⟨_, ⟨.declared ⟨"com.app", "View", []⟩, ⟨"com.app", "View", []⟩, false⟩, _, rfl,
        by decide +kernel, by decide, rfl, rfl⟩
  have hgadget : Contribution.ofMethod {} overlappingIndex
      (KeyCollection.into {} overlappingIndex .empty) ⟨"com.app", "FeatureModule", []⟩
      "bindGadget" = .ok gadgetContribution :=
    Contribution.ofMethod_eq_ok_iff.mpr
      ⟨_, ⟨.declared .string, ⟨"com.app", "Injectable", []⟩, true⟩, _, rfl,
        by decide +kernel, by decide, rfl, rfl⟩
  rw [← Contribution.resolve?_method_eq_some_iff] at hwidget hgadget
  rw [← hwidget, ← hgadget]
  rfl

/-- A round over the application hands over the modules of both contributions, in the order of the
methods. The widget is bound through the key that is listed first, although the other one comes
first among the supertypes and among the declarations. -/
theorem handed_contributions_sample :
    overlappingIndex.MethodsDistinct ∧
      [widgetContribution.file {}, gadgetContribution.file {}] <+:
        ((Session.start {} MemoryFiler.empty).handed MemoryFiler.write
          [overlappingIndex]).map (·.1) := by
  have hmethods : overlappingIndex.MethodsDistinct := by decide
  refine ⟨hmethods, ?_⟩
  obtain ⟨contributions, hfiles, hsublist, -, hcontributes, hdescribes⟩ :=
    handed_contributions MemoryFiler.write (Session.start {} MemoryFiler.empty)
      overlappingIndex rfl hmethods
  have hmodule : overlappingModule ∈ overlappingIndex.types := by
    simp [overlappingIndex, overlappingTypes]
  have hbound : ∀ m ∈ overlappingModule.methods,
      isMarkedBy ({} : MarkerNames).contributeInjector m.annotations ∧
        overlappingIndex.isAssignable m.returnType (.declared ⟨"com.app", "Injectable", []⟩) ∧
        m.returnType.rawClass?.isSome := by
    decide +kernel
  -- Both methods contribute, as the key that is listed last is for both return types.
  have hkey : IsKeyOf {} overlappingIndex (.declared ⟨"com.app", "Injectable", []⟩)
      ⟨.declared .string, ⟨"com.app", "Injectable", []⟩, true⟩ :=
    InjectorKey.ofType_eq_ok_iff.mp (by rfl)
  have hcontributed : ∀ m ∈ overlappingModule.methods,
      .method overlappingModule.name m.name ∈ contributions.map Contribution.element := by
    intro m hm
    obtain ⟨hmarked, hassignable, htarget⟩ := hbound m hm
    obtain ⟨c, hc, helement⟩ := (hcontributes _ hmodule m hm hmarked).mpr
      ⟨⟨_, by decide, _, hkey, hassignable⟩, by decide, Option.isSome_iff_exists.mp htarget⟩
    exact List.mem_map.mpr ⟨c, hc, helement⟩
  have helements : contributions.map Contribution.element =
      overlappingIndex.elementsAnnotatedWith ({} : MarkerNames).contributeInjector := by
    refine hsublist.eq_of_length_le (List.subperm_of_subset (by decide) ?_).length_le
    -- There are no marked methods but these two.
    have hmarked : ∀ element ∈
        overlappingIndex.elementsAnnotatedWith ({} : MarkerNames).contributeInjector,
        ∃ m ∈ overlappingModule.methods, element = .method overlappingModule.name m.name := by
      decide
    intro element helement
    obtain ⟨m, hm, rfl⟩ := hmarked element helement
    exact hcontributed m hm
  -- What the contributions say is what their methods are resolved to.
  have hresolved : contributions.map some = [some widgetContribution, some gadgetContribution] := by
    rw [← map_resolve?_overlapping, ← helements, List.map_map]
    refine List.map_congr_left fun c hc => ?_
    obtain ⟨⟨t, ht, m, hm, -, h⟩, -⟩ := hdescribes c hc
    rw [Function.comp_apply, Contribution.element, h.container, h.method]
    exact ((Contribution.resolve?_eq_some_iff_describes hmethods ht hm).mpr h).symm
  obtain rfl : contributions = [widgetContribution, gadgetContribution] :=
    List.map_injective_iff.mpr (Option.some_injective _) hresolved
  rw [hfiles, List.append_assoc]
  exact List.prefix_append _ _

end Overlapping

end Multibinding
