import Multibinding.Declaration.Json
import Multibinding.Proofs.Binding.KeyType
import Multibinding.Proofs.Name.TypeRefValue
import Multibinding.Proofs.Round.Plan

/-!
# What becomes of listed keys

A registry lists its keys in an argument, which is told to be a list of class literals by its form
as a whole. So the entries of a list are not independent of each other: if all of them are type
references, each one comes to its key or to a report, and if one of them is not, nothing becomes of
any of them.

* `KeyCollection.share_of_types`, `KeyCollection.share_of_not_types`: the share of a registry in the
  keys and reports;
* `KeyCollection.exists_accounted_iff`: when every entry of a list is accounted for.
-/

namespace Multibinding

open Json

namespace KeyCollection

/-- The errors among results. -/
def reportsIn {α : Type} (results : List (Except Diagnostic α)) : List Diagnostic :=
  results.filterMap fun
    | .ok _ => none
    | .error report => some report

/-- The reports of a round are those on keys, followed by those on contributions. -/
theorem diagnostics_plan (p : Processor) (index : DeclarationIndex) :
    (p.plan index).diagnostics = diagnostics p.config index (registries p.config index) ++
      reportsIn (Contribution.resolutions p.config index (p.nextRegistry index)) := by
  refine congrArg (diagnostics p.config index (registries p.config index) ++ ·) ?_
  refine List.filterMap_congr fun result _ => ?_
  cases result <;> rfl

/-- What is due to an entry that a registry lists: the key of the type that it refers to, or else an
error in the registry. -/
inductive Handled (config : Config) (index : DeclarationIndex) (element : Element) (item : Value) :
    Except Diagnostic InjectorKey → Prop
  | key {type : TypeRef} {key : InjectorKey} (htype : TypeRef.ofValue? item = some type)
    (hkey : IsKeyOf config index type key) : Handled config index element item (.ok key)
  | report {report : Diagnostic}
    (hnone : ¬∃ type key, TypeRef.ofValue? item = some type ∧ IsKeyOf config index type key)
    (hkind : report.kind = .error) (helement : report.element = some element) :
    Handled config index element item (.error report)

/-- In a round, each entry that a registry lists comes to a result of its own: the keys among the
results are collected and the errors are reported, in the place of the registry among the others. -/
structure Accounted (p : Processor) (index : DeclarationIndex) (before : List Element)
    (element : Element) (after : List Element) (items : List Value)
    (results : List (Except Diagnostic InjectorKey)) : Prop where
  handled : List.Forall₂ (Handled p.config index element) items results
  keys : keys p.config index (registries p.config index) =
    keys p.config index before ++ results.filterMap Except.toOption ++ keys p.config index after
  reports : (p.plan index).diagnostics =
    diagnostics p.config index before ++ reportsIn results ++ diagnostics p.config index after ++
      reportsIn (Contribution.resolutions p.config index (p.nextRegistry index))

variable {config : Config} {index : DeclarationIndex} {element : Element}

/-- The result for a type that a registry lists. -/
def result (config : Config) (index : DeclarationIndex) (element : Element) (type : TypeRef) :
    Except Diagnostic InjectorKey :=
  (InjectorKey.ofType config index type).mapError fun e => .error element e.message

/-- What is due to a type reference is the result for its type. -/
theorem handled_result {item : Value} {type : TypeRef} (htype : TypeRef.ofValue? item = some type) :
    Handled config index element item (result config index element type) := by
  rw [result]
  cases hof : InjectorKey.ofType config index type with
  | ok key => exact .key htype (InjectorKey.ofType_eq_ok_iff.mp hof)
  | error e =>
    refine .report ?_ rfl rfl
    rintro ⟨type', key, htype', hkey⟩
    obtain rfl : type = type' := Option.some.inj (htype.symm.trans htype')
    rw [InjectorKey.ofType_eq_ok_iff.mpr hkey] at hof
    cases hof

/-- An entry that is no type reference is due a report. -/
theorem Handled.exists_report {item : Value} {result : Except Diagnostic InjectorKey}
    (h : Handled config index element item result) (hitem : TypeRef.ofValue? item = none) :
    ∃ report, result = .error report := by
  cases h with
  | key htype => cases hitem.symm.trans htype
  | report => exact ⟨_, rfl⟩

section Share

variable {a : Annotation} {items : List Value}
  (ha : index.annotation? element config.markers.injectorKeyRegistry = some a)
  (hitems : a.value? keysArgument = some (.ofValue (.array items)))

include ha hitems

/-- A registry whose entries are all type references lists their types. -/
theorem declaredTypes_eq {types : List TypeRef} (htypes : TypeRef.ofValues? items = some types) :
    declaredTypes config index element = types := by
  rw [AnnotationValue.ofValue, htypes] at hitems
  rw [declaredTypes, ha]
  simp only [hitems, Annotation.typeList]

/-- A registry with an entry that is no type reference lists no type. -/
theorem declaredTypes_eq_nil (hnone : TypeRef.ofValues? items = none) :
    declaredTypes config index element = [] := by
  rw [AnnotationValue.ofValue, hnone] at hitems
  rw [declaredTypes, ha]
  simp only [hitems, Annotation.typeList]

/-- If all entries are type references, the share of the registry in the keys and reports are the
results for their types. -/
theorem share_of_types {types : List TypeRef} (htypes : TypeRef.ofValues? items = some types) :
    keys config index [element] =
        (types.map (result config index element)).filterMap Except.toOption ∧
      diagnostics config index [element] = reportsIn (types.map (result config index element)) := by
  rw [keys, diagnostics, entries, List.flatMap_singleton, declaredTypes_eq ha hitems htypes,
    reportsIn]
  simp only [List.filterMap_map]
  constructor
  all_goals
    refine List.filterMap_congr fun type _ => ?_
    simp only [Function.comp_apply, result]
    cases InjectorKey.ofType config index type <;> rfl

/-- If one entry is no type reference, the registry has no share in them. -/
theorem share_of_not_types (hnone : TypeRef.ofValues? items = none) :
    keys config index [element] = [] ∧ diagnostics config index [element] = [] := by
  rw [keys, diagnostics, entries, List.flatMap_singleton, declaredTypes_eq_nil ha hitems hnone]
  exact ⟨rfl, rfl⟩

end Share

/-- Keys are collected registry by registry. -/
theorem keys_append (first rest : List Element) :
    keys config index (first ++ rest) = keys config index first ++ keys config index rest := by
  rw [keys, entries, List.flatMap_append, List.filterMap_append]
  rfl

/-- Reports are made registry by registry. -/
theorem diagnostics_append (first rest : List Element) :
    diagnostics config index (first ++ rest) =
      diagnostics config index first ++ diagnostics config index rest := by
  rw [diagnostics, entries, List.flatMap_append, List.filterMap_append]
  rfl

/-- Where an entry is no type reference, results for all entries have an error. -/
theorem reportsIn_ne_nil {items : List Value} {results : List (Except Diagnostic InjectorKey)}
    (h : List.Forall₂ (Handled config index element) items results)
    (hnone : ∃ item ∈ items, TypeRef.ofValue? item = none) : reportsIn results ≠ [] := by
  obtain ⟨item, hmem, hitem⟩ := hnone
  -- The error is the first result or one of the others, whatever the first one is.
  induction h with
  | nil => cases hmem
  | @cons _ result _ _ hresult _ ih =>
    rcases List.mem_cons.mp hmem with rfl | hmem
    · obtain ⟨report, rfl⟩ := hresult.exists_report hitem
      exact List.cons_ne_nil _ _
    · cases result with
      | ok key => exact ih hmem
      | error report => exact List.cons_ne_nil _ _

section Round

variable {p : Processor} {before after : List Element} {a : Annotation} {items : List Value}
  (hregistries : registries p.config index = before ++ element :: after)

include hregistries

/-- A registry has its share of the keys in its place. -/
theorem keys_registries :
    keys p.config index (registries p.config index) = keys p.config index before ++
      keys p.config index [element] ++ keys p.config index after := by
  rw [hregistries, List.append_cons, keys_append, keys_append]

/-- So it has of the reports. -/
theorem diagnostics_registries :
    diagnostics p.config index (registries p.config index) = diagnostics p.config index before ++
      diagnostics p.config index [element] ++ diagnostics p.config index after := by
  rw [hregistries, List.append_cons, diagnostics_append, diagnostics_append]

variable (ha : index.annotation? element p.config.markers.injectorKeyRegistry = some a)
  (hitems : a.value? keysArgument = some (.ofValue (.array items)))

include ha hitems

/-- If all entries are type references, they are accounted for by the results for their types. -/
theorem accounted_of_types {types : List TypeRef} (htypes : TypeRef.ofValues? items = some types) :
    Accounted p index before element after items (types.map (result p.config index element)) := by
  obtain ⟨hkeys, hreports⟩ := share_of_types ha hitems htypes
  refine ⟨?_, ?_, ?_⟩
  · have hforall := TypeRef.ofValues?_eq_some_iff.mp htypes
    exact List.forall₂_map_right_iff.mpr (hforall.imp fun _ _ => handled_result)
  · rw [keys_registries hregistries, hkeys]
  · rw [diagnostics_plan, diagnostics_registries hregistries, hreports]

/-- If one entry is no type reference, they are not accounted for by any results. -/
theorem not_accounted_of_not_types (hnone : TypeRef.ofValues? items = none)
    (results : List (Except Diagnostic InjectorKey)) :
    ¬Accounted p index before element after items results := by
  intro haccounted
  -- The registry reports nothing, so that no result can be an error.
  have hplan := haccounted.reports
  rw [diagnostics_plan, diagnostics_registries hregistries,
    (share_of_not_types ha hitems hnone).2] at hplan
  have hempty := List.append_cancel_right hplan
  simp only [List.append_nil, List.append_cancel_right_eq, List.self_eq_append_right] at hempty
  exact reportsIn_ne_nil haccounted.handled (TypeRef.ofValues?_eq_none_iff.mp hnone) hempty

end Round

/-- The entries that a registry lists are accounted for in a round, each with its key or an error in
the registry, exactly if all of them are type references. If one of them is not, no key is collected
from the registry and no error is reported in it. -/
theorem exists_accounted_iff {p : Processor} {before after : List Element} {a : Annotation}
    {items : List Value} (hregistries : registries p.config index = before ++ element :: after)
    (ha : index.annotation? element p.config.markers.injectorKeyRegistry = some a)
    (hitems : a.value? keysArgument = some (.ofValue (.array items))) :
    ((∃ results, Accounted p index before element after items results) ↔
        ∀ item ∈ items, (TypeRef.ofValue? item).isSome) ∧
      ((∃ item ∈ items, TypeRef.ofValue? item = none) →
        keys p.config index [element] = [] ∧ diagnostics p.config index [element] = []) := by
  refine ⟨⟨?_, ?_⟩, fun hnone => share_of_not_types ha hitems
    (TypeRef.ofValues?_eq_none_iff.mpr hnone)⟩
  -- A single entry of another kind makes the list no list of types, so that none is accounted for.
  · rintro ⟨results, hresults⟩ item hmem
    by_contra hitem
    have hnone := TypeRef.ofValues?_eq_none_iff.mpr ⟨item, hmem, by simpa using hitem⟩
    exact not_accounted_of_not_types hregistries ha hitems hnone results hresults
  · intro hall
    cases htypes : TypeRef.ofValues? items with
    | some types => exact ⟨_, accounted_of_types hregistries ha hitems htypes⟩
    | none =>
      obtain ⟨item, hmem, hitem⟩ := TypeRef.ofValues?_eq_none_iff.mp htypes
      simpa [hitem] using hall item hmem

/-- The sample application with other entries in the list of its registry. -/
def listingIndex (items : List Value) : DeclarationIndex :=
  (sampleIndex []).put {
    name := ⟨"com.app", "InjectorKeys", []⟩
    kind := .plain
    annotations :=
      [⟨({} : MarkerNames).injectorKeyRegistry, [(keysArgument, .ofValue (.array items))]⟩]
    supertypes := []
    methods := [] }

/-- A key type, and another class that is listed after it. -/
def listedClasses : List Value :=
  [.object [("class", .string "com.app.Injectable")], .object [("class", .string "com.app.Widget")]]

/-- The key type comes to its key and the other class to a report. -/
theorem exists_accounted_listing :
    ∃ results, Accounted (.ofConfig {}) (listingIndex listedClasses)
      [] (.type ⟨"com.app", "InjectorKeys", []⟩) [] listedClasses results := by
  have hregistries : registries {} (listingIndex listedClasses) =
      [] ++ .type ⟨"com.app", "InjectorKeys", []⟩ :: [] := by
    decide +kernel
  have haccounted := exists_accounted_iff (p := .ofConfig {}) hregistries
    (a := ⟨({} : MarkerNames).injectorKeyRegistry,
      [(keysArgument, .ofValue (.array listedClasses))]⟩)
    rfl rfl
  exact haccounted.1.mpr (by decide +kernel)

/-- The same list with a name in place of the other class, in the JSON form of an index. -/
def mixedListingJson : Value :=
  .object [("types", .array [
    .object [
      ("name", .string "com.app.Injectable"),
      ("kind", .string "annotation"),
      ("annotations", .array [.object [("type", .string "dagger.MapKey")]]),
      ("methods", .array [.object [
        ("name", .string "value"),
        ("return_type", .object [("class", .string "java.lang.String")])]])],
    .object [
      ("name", .string "com.app.InjectorKeys"),
      ("annotations", .array [.object [
        ("type", .string "com.ivianuu.contributor.InjectorKeyRegistry"),
        ("values", .object [("keys", .array [
          .object [("class", .string "com.app.Injectable")],
          .string "com.app.Other"])])]])]])]

/-- The index is loaded, and the first entry is a key type, but neither is its key collected nor is
the other entry reported. -/
theorem mixed_listing_ignored :
    ∃ index, DeclarationIndex.ofJsonText mixedListingJson.pretty = .ok index ∧
      registries {} index = [.type ⟨"com.app", "InjectorKeys", []⟩] ∧
      (InjectorKey.ofType {} index (.declared ⟨"com.app", "Injectable", []⟩)).toOption.isSome ∧
      keys {} index (registries {} index) = [] ∧
      ((Processor.ofConfig {}).plan index).diagnostics = [] := by
  have hparse : Document.parse mixedListingJson.pretty = ⟨mixedListingJson.toNode, false⟩ :=
    Value.parse_pretty (by decide +kernel) (by decide +kernel)
  simp only [← toOption_eq_some_iff, ← Option.mem_def]
  rw [DeclarationIndex.ofJsonText, Reader.run, hparse]
  decide +kernel

end KeyCollection

end Multibinding
