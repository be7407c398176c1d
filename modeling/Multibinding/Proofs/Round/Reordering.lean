import Multibinding.Proofs.Binding.Members
import Multibinding.Proofs.Declaration.Agreement
import Multibinding.Proofs.Round.Plan

/-!
# Declarations in another order

The order in which types are declared matters for the registries only, whose keys compete with each
other. If the types change places, but those that have to do with registries do not pass each other,
a round collects the same keys, binds the same contributions and makes the same reports, if in
another order, and the module that includes the others includes the same ones in the same order.

* `agreeOn_of_perm`: look-ups and assignability do not depend on the order;
* `elementsAnnotatedWith_eq_of_filter_eq`: which types an enumeration depends on;
* `entries_registries_of_perm`, `resolutions_perm`: the keys and the contributions;
* `round_of_perm`: a round.
-/

namespace Multibinding

/-- Whether a type or one of its methods carries an annotation of a type. -/
def TypeElement.carries (marker : ClassName) (t : TypeElement) : Bool :=
  isMarkedBy marker t.annotations || t.methods.any (isMarkedBy marker ·.annotations)

/-- Every element is a type or any method. -/
theorem Element.isTypeOr_true (element : Element) : element.IsTypeOr fun _ _ => True := by
  cases element <;> trivial

namespace DeclarationIndex

variable {index other : DeclarationIndex}

/-- Enumerated elements depend only on the types that carry the annotation and on their order. -/
theorem elementsAnnotatedWith_eq_of_filter_eq {marker : ClassName}
    (h : index.types.filter (·.carries marker) = other.types.filter (·.carries marker)) :
    other.elementsAnnotatedWith marker = index.elementsAnnotatedWith marker := by
  -- Types that do not carry the annotation yield no element and can be left out on both sides.
  have hnil : ∀ t : TypeElement, t.carries marker = false →
      (if isMarkedBy marker t.annotations then [.type t.name] else []) ++
        (t.methods.filter (isMarkedBy marker ·.annotations)).map (Element.method t.name ·.name) =
      [] := by
    intro t ht
    obtain ⟨htype, hmethods⟩ := Bool.or_eq_false_iff.mp ht
    have hnone := List.filter_eq_nil_iff.mpr (List.any_eq_false.mp hmethods)
    rw [htype, if_neg Bool.false_ne_true, hnone, List.map_nil, List.append_nil]
  rw [elementsAnnotatedWith, elementsAnnotatedWith, ← flatMap_filter_of_eq_nil fun t _ => hnil t,
    ← h, flatMap_filter_of_eq_nil fun t _ => hnil t]

variable (h : index.types.Perm other.types)
include h

/-- The look-up of a name does not depend on the order of the types. -/
theorem type?_of_perm (name : ClassName) : other.type? name = index.type? name := by
  -- A name belongs to one type, so that it is found wherever the type stands.
  refine Option.ext fun t => ?_
  rw [type?_eq_some_iff, type?_eq_some_iff, h.mem_iff]

/-- Indexes of the same types agree on all methods. -/
theorem agreeOn_of_perm : AgreeOn (fun _ _ => True) index other where
  annotations := by
    intro name
    rw [annotationsOf, annotationsOf, type?_of_perm h]
  supertypes := by
    intro name
    rw [directSupertypes, directSupertypes, type?_of_perm h]
  methods := by
    intro owner name _
    rw [method?, method?, type?_of_perm h]

/-- The same elements are enumerated. -/
theorem elementsAnnotatedWith_perm (marker : ClassName) :
    (other.elementsAnnotatedWith marker).Perm (index.elementsAnnotatedWith marker) :=
  h.symm.flatMap_right _

end DeclarationIndex

section SameTypes

variable {config : Config} {index other : DeclarationIndex}
  (h : index.types.Perm other.types)
include h

/-- What becomes of the types that given declarations list is the same. -/
theorem KeyCollection.entries_of_perm (elements : List Element) :
    entries config other elements = entries config index elements := by
  have hagree := DeclarationIndex.agreeOn_of_perm h
  refine List.flatMap_congr fun element _ => ?_
  rw [declaredTypes_congr hagree element.isTypeOr_true]
  refine List.map_congr_left fun type _ => ?_
  rw [InjectorKey.ofType_congr hagree fun base _ _ => DeclarationIndex.type?_of_perm h base]

/-- With the same registry, the same becomes of the contributions. -/
theorem Contribution.resolutions_perm (registry : KeyRegistry) :
    (resolutions config other registry).Perm (resolutions config index registry) := by
  have hagree := DeclarationIndex.agreeOn_of_perm h
  have hsame : ofElement? config other registry = ofElement? config index registry :=
    funext fun element => ofElement?_congr hagree registry element.isTypeOr_true
  rw [resolutions, resolutions, hsame]
  exact (DeclarationIndex.elementsAnnotatedWith_perm h _).filterMap _

/-- The same becomes of the types that the registries of the index list. -/
theorem KeyCollection.entries_registries_of_perm
    (hregistries : index.types.filter (·.carries config.markers.injectorKeyRegistry) =
      other.types.filter (·.carries config.markers.injectorKeyRegistry)) :
    entries config other (registries config other) =
      entries config index (registries config index) := by
  rw [entries_of_perm h, registries, registries,
    DeclarationIndex.elementsAnnotatedWith_eq_of_filter_eq hregistries]

namespace Processor

variable {p : Processor}
  (hregistries : index.types.filter (·.carries p.config.markers.injectorKeyRegistry) =
    other.types.filter (·.carries p.config.markers.injectorKeyRegistry))
include hregistries

/-- A round over the same types plans the same, up to the order of contributions and reports. -/
theorem plan_of_perm :
    (p.plan other).registry = (p.plan index).registry ∧
      (p.plan other).contributions.Perm (p.plan index).contributions ∧
      (p.plan other).dropped = (p.plan index).dropped ∧
      (p.plan other).diagnostics.Perm (p.plan index).diagnostics := by
  -- The registry is the same, so that only the enumeration of the contributions differs.
  have hresolutions : (Contribution.resolutions p.config other (p.nextRegistry index)).Perm
      (Contribution.resolutions p.config index (p.nextRegistry index)) :=
    Contribution.resolutions_perm h (p.nextRegistry index)
  rw [plan_eq_of_entries (KeyCollection.entries_registries_of_perm h hregistries), plan_eq]
  refine ⟨rfl, hresolutions.filterMap _, (hresolutions.filterMap _).length_eq, ?_⟩
  exact (hresolutions.filterMap _).append_left _

end Processor

end SameTypes

/-- Rounds of one processor over two indexes that declare the same types in different orders. Those
types that carry the marker of registries, or have a method that does, come in the same order. Then
both rounds collect the same keys in the same order, resolve the same contributions and drop as many
of them, and make the same reports, and the modules that include the others include the same ones in
the same order. -/
theorem round_of_perm {σ : Type} (write : Filer (StateM σ)) (s : Session σ)
    {index other : DeclarationIndex} (htypes : index.types.Perm other.types)
    (hregistries :
      index.types.filter (·.carries s.processor.config.markers.injectorKeyRegistry) =
        other.types.filter (·.carries s.processor.config.markers.injectorKeyRegistry)) :
    let config := s.processor.config
    let plan := s.processor.plan index
    let plan' := s.processor.plan other
    let round := s.round write index
    let round' := s.round write other
    round'.2.processor.registry = round.2.processor.registry ∧
    plan'.contributions.Perm plan.contributions ∧
    round'.1.dropped = round.1.dropped ∧
    round'.2.reports.Perm round.2.reports ∧
    plan'.aggregate?.map (fun a => (a.file config).includes) =
      plan.aggregate?.map fun a => (a.file config).includes := by
  intro config plan plan' round round'
  -- The filer does not matter for any of this, which is all said of the plans.
  obtain ⟨hregistry, hcontributions, hdropped, hreports⟩ :=
    Processor.plan_of_perm (p := s.processor) htypes hregistries
  exact ⟨hregistry, hcontributions, hdropped, hreports.append_left s.reports,
    AggregateModule.map_includes_of_perm hcontributions⟩

/-- The sample application with a second module. -/
def twoModulesIndex : DeclarationIndex :=
  (sampleIndex ["bindWidget"]).put {
    name := ⟨"com.app", "OtherModule", []⟩
    kind := .plain
    annotations := [⟨({} : MarkerNames).module, []⟩]
    supertypes := []
    methods :=
      [⟨"bindOther", .declared ⟨"com.app", "Widget", []⟩,
        [⟨({} : MarkerNames).contributeInjector, []⟩]⟩] }

/-- Its types in the opposite order. -/
def twoModulesReversed : DeclarationIndex where
  types := twoModulesIndex.types.reverse
  nodup := by
    rw [List.map_reverse, List.nodup_reverse]
    exact twoModulesIndex.nodup

/-- In the opposite order, the module that includes the others has another name, but it includes the
same ones. -/
theorem round_of_perm_sample :
    let plan := (Processor.ofConfig {}).plan twoModulesIndex
    let plan' := (Processor.ofConfig {}).plan twoModulesReversed
    plan.aggregate?.map (·.name) = some ⟨"com.app", "FeatureModule_Contributions", []⟩ ∧
      plan'.aggregate?.map (·.name) = some ⟨"com.app", "OtherModule_Contributions", []⟩ ∧
      plan'.aggregate?.map (fun a => (a.file {}).includes) =
        plan.aggregate?.map fun a => (a.file {}).includes := by
  intro plan plan'
  have hperm : twoModulesIndex.types.Perm twoModulesReversed.types :=
    (List.reverse_perm twoModulesIndex.types).symm
  obtain ⟨-, -, -, -, hincludes⟩ := round_of_perm MemoryFiler.write (.start {} .empty) hperm rfl
  exact ⟨by decide +kernel, by decide +kernel, hincludes⟩

end Multibinding
