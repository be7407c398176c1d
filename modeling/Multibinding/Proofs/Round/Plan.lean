import Multibinding.Proofs.Binding.Description
import Multibinding.Session

/-!
# What a round plans

The plan of a round, said element by element: which of the marked elements contribute, which of them
are dropped, and what the files are named.

* `plan_eq`: what a plan is made of;
* `contributions_plan`: the contributions are those of the marked elements, in their order;
* `dropped_add_length_contributions`: every marked method contributes or is dropped;
* `files_plan`, `map_name_files`: the files and their names in their order.
-/

namespace Multibinding

open Java (SourceFile)

namespace Contribution

variable {config : Config} {index : DeclarationIndex} {registry : KeyRegistry}

/-- The contribution of an element, if it has one. -/
def resolve? (config : Config) (index : DeclarationIndex) (registry : KeyRegistry)
    (element : Element) : Option Contribution :=
  (ofElement? config index registry element).bind Except.toOption

/-- A method has a contribution exactly if one is made of it. -/
theorem resolve?_method_eq_some_iff {owner : ClassName} {name : String} {c : Contribution} :
    resolve? config index registry (.method owner name) = some c ↔
      ofMethod config index registry owner name = .ok c := by
  rw [resolve?, ofElement?, Option.bind_some, toOption_eq_some_iff]
  exact mapError_eq_ok_iff

/-- A contribution comes from the element that it is resolved for. -/
theorem element_of_resolve? {element : Element} {c : Contribution}
    (h : resolve? config index registry element = some c) : c.element = element := by
  cases element with
  | type name => cases h
  | method owner name =>
    obtain ⟨m, key, target, -, -, -, -, rfl⟩ :=
      ofMethod_eq_ok_iff.mp (resolve?_method_eq_some_iff.mp h)
    rfl

/-- Whatever becomes of it, every marked method is resolved once. -/
theorem length_resolutions (registry : KeyRegistry) :
    (resolutions config index registry).length =
      ((index.elementsAnnotatedWith config.markers.contributeInjector).filter
        Element.isMethod).length := by
  rw [resolutions, List.length_filterMap_eq_countP, List.countP_eq_length_filter]
  congr 2
  funext element
  cases element <;> rfl

end Contribution

/-- The report on a contribution that cannot be bound. -/
def Contribution.report? : Except Diagnostic Contribution → Option Diagnostic
  | .ok _ => none
  | .error report => some report

/-- A resolution is a report or a contribution. -/
theorem length_filterMap_toOption_add (results : List (Except Diagnostic Contribution)) :
    (results.filterMap Contribution.report?).length +
      (results.filterMap Except.toOption).length = results.length := by
  induction results with
  | nil => rfl
  | cons result rest ih =>
    cases result <;>
      simp only [List.filterMap_cons, Contribution.report?, Except.toOption, List.length_cons] <;>
      omega

/-- The module that includes those of the contributions of a round. -/
def RoundPlan.aggregate? (plan : RoundPlan) : Option AggregateModule :=
  AggregateModule.ofContributions? plan.contributions

/-- A module that includes others is made exactly if there are contributions, and it is named after
the container of the first. -/
theorem RoundPlan.map_name_aggregate? (plan : RoundPlan) :
    plan.aggregate?.map (·.name) =
      plan.contributions.head?.map (·.container.contributionsModule) := by
  rw [aggregate?]
  cases plan.contributions <;> rfl

namespace Processor

/-- The plan of a round is made of its registry, of what becomes of the contributions, and of the
reports on keys. -/
def planOf (p : Processor) (registry : KeyRegistry)
    (resolutions : List (Except Diagnostic Contribution)) (reports : List Diagnostic) :
    RoundPlan where
  registry := registry
  contributions := resolutions.filterMap Except.toOption
  dropped := (resolutions.filterMap Contribution.report?).length
  diagnostics := reports ++ resolutions.filterMap Contribution.report?
  files :=
    (resolutions.filterMap Except.toOption).map (·.file p.config) ++
      (AggregateModule.ofContributions? (resolutions.filterMap Except.toOption)).toList.map
        (·.file p.config) ++
      p.injectionModule?.toList.map (InjectionModule.file p.config)

/-- A round over an index makes its plan this way. -/
theorem plan_eq (p : Processor) (index : DeclarationIndex) :
    p.plan index =
      p.planOf (p.nextRegistry index)
        (Contribution.resolutions p.config index (p.nextRegistry index))
        (KeyCollection.diagnostics p.config index (KeyCollection.registries p.config index)) := rfl

section SameEntries

variable {p : Processor} {index other : DeclarationIndex}
  (h : KeyCollection.entries p.config other (KeyCollection.registries p.config other) =
    KeyCollection.entries p.config index (KeyCollection.registries p.config index))
include h

/-- If the same becomes of the types that registries list, contributions are bound through the same
registry. -/
theorem nextRegistry_eq_of_entries : p.nextRegistry other = p.nextRegistry index := by
  rw [nextRegistry, nextRegistry, KeyCollection.into, KeyCollection.into, KeyCollection.keys,
    KeyCollection.keys, h]

/-- Then plans differ by what becomes of the contributions only. -/
theorem plan_eq_of_entries :
    p.plan other =
      p.planOf (p.nextRegistry index)
        (Contribution.resolutions p.config other (p.nextRegistry index))
        (KeyCollection.diagnostics p.config index (KeyCollection.registries p.config index)) := by
  rw [plan_eq, nextRegistry_eq_of_entries h, KeyCollection.diagnostics, KeyCollection.diagnostics,
    h]

end SameEntries

/-- A processor that rebuilds its registry binds through the keys of the index alone. -/
theorem nextRegistry_of_rebuild {p : Processor} {index : DeclarationIndex}
    (hmode : p.config.registryMode = .rebuild) :
    p.nextRegistry index = KeyCollection.into p.config index .empty := by
  rw [nextRegistry, hmode]

/-- A processor that merges registries binds through its keys and those of the index. -/
theorem nextRegistry_of_merge {p : Processor} {index : DeclarationIndex}
    (hmode : p.config.registryMode = .merge) :
    p.nextRegistry index = KeyCollection.into p.config index p.registry := by
  rw [nextRegistry, hmode]

variable (p : Processor) (index : DeclarationIndex)

/-- The contributions of a round are those of the marked elements, in their order. -/
theorem contributions_plan :
    (p.plan index).contributions =
      (index.elementsAnnotatedWith p.config.markers.contributeInjector).filterMap
        (Contribution.resolve? p.config index (p.nextRegistry index)) :=
  List.filterMap_filterMap

/-- The methods that contribute are marked elements in their order. -/
theorem map_element_contributions_sublist :
    ((p.plan index).contributions.map Contribution.element).Sublist
      (index.elementsAnnotatedWith p.config.markers.contributeInjector) := by
  rw [contributions_plan, List.map_filterMap]
  -- Each marked element is either passed over or gives a contribution that comes from it.
  induction index.elementsAnnotatedWith p.config.markers.contributeInjector with
  | nil => exact List.Sublist.slnil
  | cons element rest ih =>
    rw [List.filterMap_cons]
    cases h : Contribution.resolve? p.config index (p.nextRegistry index) element with
    | none => exact ih.cons element
    | some c =>
      rw [Option.map_some, Contribution.element_of_resolve? h]
      exact ih.cons_cons element

/-- Every marked method contributes or is dropped. -/
theorem dropped_add_length_contributions :
    (p.plan index).dropped + (p.plan index).contributions.length =
      ((index.elementsAnnotatedWith p.config.markers.contributeInjector).filter
        Element.isMethod).length := by
  rw [← Contribution.length_resolutions (p.nextRegistry index)]
  exact length_filterMap_toOption_add
    (Contribution.resolutions p.config index (p.nextRegistry index))

/-- The files: the modules of the contributions, the one that includes them, and the one that
declares the maps. -/
theorem files_plan :
    (p.plan index).files =
      (p.plan index).contributions.map (·.file p.config) ++
        (p.plan index).aggregate?.toList.map (·.file p.config) ++
          p.injectionModule?.toList.map (InjectionModule.file p.config) := rfl

/-- The names of the files in their order. -/
theorem map_name_files :
    (p.plan index).files.map (·.name) =
      (p.plan index).contributions.map Contribution.moduleName ++
        ((p.plan index).contributions.head?.map (·.container.contributionsModule)).toList ++
          p.injectionModule?.toList := by
  rw [files_plan, ← RoundPlan.map_name_aggregate?, Option.toList_map, List.map_append,
    List.map_append, List.map_map, List.map_map, List.map_map]
  congr 1
  exact List.map_id _

end Processor

section Sample

/-- The types of an application with one key, for widgets, and one module, whose methods have some
names and contribute widgets each. -/
def sampleTypes (methods : List String) : List TypeElement :=
  let injectable : ClassName := ⟨"com.app", "Injectable", []⟩
  let widget : ClassName := ⟨"com.app", "Widget", []⟩
  let markers : MarkerNames := {}
  [ { name := injectable
      kind := .annotationType
      annotations := [⟨markers.mapKey, []⟩]
      supertypes := []
      methods := [⟨"value", .declared .string, []⟩] },
    { name := ⟨"com.app", "InjectorKeys", []⟩
      kind := .plain
      annotations :=
        [⟨markers.injectorKeyRegistry, [(keysArgument, .typeList [.declared injectable])]⟩]
      supertypes := []
      methods := [] },
    { name := widget
      kind := .plain
      annotations := []
      supertypes := [.declared injectable]
      methods := [] },
    { name := ⟨"com.app", "FeatureModule", []⟩
      kind := .plain
      annotations := [⟨markers.module, []⟩]
      supertypes := []
      methods := methods.map fun name =>
        ⟨name, .declared widget, [⟨markers.contributeInjector, []⟩]⟩ } ]

/-- The index of the types of the application. -/
def sampleIndex (methods : List String) : DeclarationIndex where
  types := sampleTypes methods
  nodup := by simp [sampleTypes]

/-- The files of a round over the application with one contribution. -/
example :
    (((Processor.ofConfig {}).plan (sampleIndex ["bindWidget"])).files.map (·.name)) =
      [⟨"com.app", "FeatureModule_BindWidget", []⟩,
        ⟨"com.app", "FeatureModule_Contributions", []⟩] := by
  decide +kernel

end Sample

end Multibinding
