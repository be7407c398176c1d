import Multibinding.Proofs.Declaration.Insertion
import Multibinding.Proofs.Round.Plan

/-!
# A contribution that cannot be bound

A marked method that cannot be bound is reported and stops nothing. A round over an index with one
more such method plans what the round over the index without it plans, apart from one more report.
The method may stand anywhere in a type, unless a registry lists this type as the type of a key,
whose methods are counted.

* `entries_put_withMethod`: the keys are collected as before;
* `resolutions_put_withMethod`: the other contributions are resolved as before;
* `plan_put_withMethod`: what a round plans;
* `round_put_withMethod`: what becomes of a session.
-/

namespace Multibinding

/-- A type is the type of a key if a registry lists it and it is marked as the type of map keys. -/
def KeyCollection.IsKeyType (config : Config) (index : DeclarationIndex) (t : TypeElement) :
    Prop :=
  isMarkedBy config.markers.mapKey t.annotations ∧
    ∃ element ∈ registries config index, ∃ type ∈ declaredTypes config index element,
      type.rawClass? = some t.name

section Insertion

variable {config : Config} {index : DeclarationIndex} {t : TypeElement} (ht : t ∈ index.types)
  (position : Nat) {m : MethodElement} (hnew : ∀ n ∈ t.methods, n.name ≠ m.name)
include ht

/-- A method without the marker of registries adds no registry. -/
theorem KeyCollection.registries_put_withMethod
    (hregistry : isMarkedBy config.markers.injectorKeyRegistry m.annotations = false) :
    registries config (index.put (t.withMethod position m)) = registries config index := by
  obtain ⟨before, after, hindex, hput⟩ := DeclarationIndex.elementsAnnotatedWith_put_withMethod
    ht position (m := m) config.markers.injectorKeyRegistry
  rw [registries, registries, hindex, hput, hregistry, if_neg Bool.false_ne_true, List.append_nil]

include hnew

/-- Every element that is enumerated without the method is one that the indexes agree on. -/
theorem DeclarationIndex.isTypeOr_of_mem_elementsAnnotatedWith {marker : ClassName}
    {element : Element} (h : element ∈ index.elementsAnnotatedWith marker) :
    element.IsTypeOr fun owner name => ¬(owner = t.name ∧ name = m.name) := by
  cases element with
  | type name => trivial
  | method owner name =>
    rintro ⟨rfl, rfl⟩
    exact method_notMem_elementsAnnotatedWith ht hnew marker h

/-- What becomes of the listed types is the same with the method, unless its type is the type of a
key. -/
theorem KeyCollection.entries_put_withMethod (hkey : ¬IsKeyType config index t) :
    entries config (index.put (t.withMethod position m)) (registries config index) =
      entries config index (registries config index) := by
  have hagree := DeclarationIndex.agreeOn_put_withMethod ht position (m := m)
  refine List.flatMap_congr fun element helement => ?_
  rw [declaredTypes_congr hagree
    (DeclarationIndex.isTypeOr_of_mem_elementsAnnotatedWith ht hnew helement)]
  refine List.map_congr_left fun type htype => ?_
  rw [InjectorKey.ofType_congr hagree]
  intro base hbase hmarker
  rw [DeclarationIndex.type?_put_withMethod ht, if_neg]
  -- If the class were the type of the method, the type would be the type of a key.
  rintro rfl
  obtain ⟨u, hu, hname, hmapKey⟩ := DeclarationIndex.isAnnotated_type_iff.mp hmarker
  obtain rfl := DeclarationIndex.eq_of_name_eq hu ht hname
  exact hkey ⟨hmapKey, element, helement, type, htype, hbase⟩

/-- The same becomes of the types that the registries of the index list. -/
theorem KeyCollection.entries_registries_put_withMethod (hkey : ¬IsKeyType config index t)
    (hregistry : isMarkedBy config.markers.injectorKeyRegistry m.annotations = false) :
    entries config (index.put (t.withMethod position m))
        (registries config (index.put (t.withMethod position m))) =
      entries config index (registries config index) := by
  rw [registries_put_withMethod ht position hregistry,
    entries_put_withMethod ht position hnew hkey]

/-- The other contributions are resolved with the method as they are without it, and the method is
resolved at its place. -/
theorem Contribution.resolutions_put_withMethod (registry : KeyRegistry)
    (hmarked : isMarkedBy config.markers.contributeInjector m.annotations) :
    ∃ before after, resolutions config index registry = before ++ after ∧
      resolutions config (index.put (t.withMethod position m)) registry =
        before ++
          (ofMethod config (index.put (t.withMethod position m)) registry t.name m.name).mapError
            (fun e => .error (.method t.name m.name) (e.message (.method t.name m.name))) ::
          after := by
  obtain ⟨before, after, hindex, hput⟩ := DeclarationIndex.elementsAnnotatedWith_put_withMethod
    ht position (m := m) config.markers.contributeInjector
  have hagree := DeclarationIndex.agreeOn_put_withMethod ht position (m := m)
  -- Where the indexes agree, they resolve an element in the same way.
  have hother : ∀ elements : List Element, elements ⊆ before ++ after →
      elements.filterMap (ofElement? config (index.put (t.withMethod position m)) registry) =
        elements.filterMap (ofElement? config index registry) := by
    intro elements hsubset
    refine List.filterMap_congr fun element helement => ?_
    exact ofElement?_congr hagree registry
      (DeclarationIndex.isTypeOr_of_mem_elementsAnnotatedWith ht hnew (hindex ▸ hsubset helement))
  refine ⟨before.filterMap (ofElement? config index registry),
    after.filterMap (ofElement? config index registry), ?_, ?_⟩
  · rw [resolutions, hindex, List.filterMap_append]
  · rw [resolutions, hput, hmarked, if_pos rfl, List.append_assoc, List.filterMap_append,
      List.singleton_append, List.filterMap_cons, ofElement?,
      hother before (List.subset_append_left _ _), hother after (List.subset_append_right _ _)]

end Insertion

namespace Processor

/-- One more contribution that cannot be bound is counted as dropped and reported at its place. It
changes nothing else. -/
theorem planOf_insert_error (p : Processor) (registry : KeyRegistry)
    (before after : List (Except Diagnostic Contribution)) (report : Diagnostic)
    (reports : List Diagnostic) :
    p.planOf registry (before ++ .error report :: after) reports =
      { p.planOf registry (before ++ after) reports with
        dropped := (p.planOf registry (before ++ after) reports).dropped + 1
        diagnostics := reports ++ before.filterMap Contribution.report? ++
          report :: after.filterMap Contribution.report? } := by
  -- Files are made of the contributions only, among which an error leaves no gap.
  have hcontributions : (before ++ .error report :: after).filterMap Except.toOption =
      (before ++ after).filterMap Except.toOption := by
    rw [List.filterMap_append, List.filterMap_append, List.filterMap_cons]
    rfl
  have hreports : (before ++ .error report :: after).filterMap Contribution.report? =
      before.filterMap Contribution.report? ++ report :: after.filterMap Contribution.report? := by
    rw [List.filterMap_append, List.filterMap_cons]
    rfl
  have hdropped : (before.filterMap Contribution.report? ++
        report :: after.filterMap Contribution.report?).length =
      ((before ++ after).filterMap Contribution.report?).length + 1 := by
    simp only [List.filterMap_append, List.length_append, List.length_cons]
    omega
  simp only [planOf, hcontributions, hreports, hdropped, List.append_assoc]

variable {p : Processor} {index : DeclarationIndex} {t : TypeElement} (ht : t ∈ index.types)
  (hkey : ¬KeyCollection.IsKeyType p.config index t) (position : Nat) {m : MethodElement}
  (hnew : ∀ n ∈ t.methods, n.name ≠ m.name)
  (hregistry : isMarkedBy p.config.markers.injectorKeyRegistry m.annotations = false)
include ht hkey hnew hregistry

/-- The registry of a round is the same with the method. -/
theorem nextRegistry_put_withMethod :
    p.nextRegistry (index.put (t.withMethod position m)) = p.nextRegistry index :=
  nextRegistry_eq_of_entries
    (KeyCollection.entries_registries_put_withMethod ht position hnew hkey hregistry)

/-- With a marked method that cannot be bound, a round drops one more contribution and makes one
more report. It plans nothing else anew. -/
theorem plan_put_withMethod
    (hmarked : isMarkedBy p.config.markers.contributeInjector m.annotations)
    {e : ContributionError}
    (hfails : Contribution.ofMethod p.config (index.put (t.withMethod position m))
      (p.nextRegistry index) t.name m.name = .error e) :
    ∃ before after, (p.plan index).diagnostics = before ++ after ∧
      p.plan (index.put (t.withMethod position m)) =
        { p.plan index with
          dropped := (p.plan index).dropped + 1
          diagnostics := before ++
            .error (.method t.name m.name) (e.message (.method t.name m.name)) :: after } := by
  -- All other contributions are resolved as before, and with the same keys.
  obtain ⟨before, after, hindex, hput⟩ := Contribution.resolutions_put_withMethod ht position hnew
    (p.nextRegistry index) hmarked
  rw [hfails] at hput
  refine ⟨KeyCollection.diagnostics p.config index (KeyCollection.registries p.config index) ++
    before.filterMap Contribution.report?, after.filterMap Contribution.report?, ?_, ?_⟩
  · rw [plan_eq, hindex]
    simp only [planOf, List.filterMap_append, List.append_assoc]
  · rw [plan_eq_of_entries
        (KeyCollection.entries_registries_put_withMethod ht position hnew hkey hregistry),
      plan_eq, hput, hindex]
    exact p.planOf_insert_error ..

end Processor

/-- A round over an index, and one over the same index with one more method in a type that is not
the type of a key. The method has a name that is new in the type, the marker of contributions and
not that of registries, and it cannot be bound. Both rounds collect the same registry, resolve the
same contributions, hand over the same files, and leave the processor and the filer in the same
state. With the method, one more contribution is dropped, and there is one more report, on the
method. -/
theorem round_put_withMethod {σ : Type} (write : Filer (StateM σ)) (s : Session σ)
    (index : DeclarationIndex) {t : TypeElement} (ht : t ∈ index.types)
    (hkey : ¬KeyCollection.IsKeyType s.processor.config index t) (position : Nat)
    {m : MethodElement} (hnew : ∀ n ∈ t.methods, n.name ≠ m.name)
    (hmarked : isMarkedBy s.processor.config.markers.contributeInjector m.annotations)
    (hregistry : isMarkedBy s.processor.config.markers.injectorKeyRegistry m.annotations = false)
    (hfails : Contribution.resolve? s.processor.config (index.put (t.withMethod position m))
      (s.processor.nextRegistry (index.put (t.withMethod position m)))
      (.method t.name m.name) = none) :
    let more := index.put (t.withMethod position m)
    let plan := s.processor.plan index
    let outcome := (s.round write index).1
    let next := (s.round write index).2
    (s.processor.plan more).registry = plan.registry ∧
    (s.processor.plan more).contributions = plan.contributions ∧
    s.handed write [more] = s.handed write [index] ∧
    (s.round write more).2.processor = next.processor ∧
    (s.round write more).2.filing = next.filing ∧
    (s.round write more).1 = { outcome with dropped := outcome.dropped + 1 } ∧
    ∃ before after message, next.reports = before ++ after ∧
      (s.round write more).2.reports =
        before ++ .error (.method t.name m.name) message :: after := by
  intro more plan outcome next
  have hnext : s.processor.nextRegistry more = s.processor.nextRegistry index :=
    Processor.nextRegistry_put_withMethod ht hkey position hnew hregistry
  obtain ⟨e, he⟩ : ∃ e, Contribution.ofMethod s.processor.config more
      (s.processor.nextRegistry index) t.name m.name = .error e := by
    rw [hnext] at hfails
    cases hof : Contribution.ofMethod s.processor.config more (s.processor.nextRegistry index)
        t.name m.name with
    | error e => exact ⟨e, rfl⟩
    | ok c =>
      rw [Contribution.resolve?_method_eq_some_iff.mpr hof] at hfails
      cases hfails
  obtain ⟨before, after, hdiagnostics, hplan⟩ :=
    Processor.plan_put_withMethod ht hkey position hnew hregistry hmarked he
  -- The files are the same, so that the filer answers the same.
  have hfiles : (s.processor.plan more).files = plan.files := by rw [hplan]
  refine ⟨by rw [hplan], by rw [hplan], ?_, ?_, ?_, ?_, s.reports ++ before, after,
    e.message (.method t.name m.name), ?_, ?_⟩
  · rw [Session.handed_singleton, Session.handed_singleton, hfiles]
  · rw [Session.round_eq, hplan]
    rfl
  · rw [Session.round_eq, hplan]
    rfl
  · rw [Session.round_eq, hplan]
    rfl
  · show s.reports ++ (s.processor.plan index).diagnostics = _
    rw [hdiagnostics, List.append_assoc]
  · show s.reports ++ (s.processor.plan more).diagnostics = _
    rw [hplan, List.append_assoc]

/-- In the sample application, a method of the module that contributes a string cannot be bound, as
no key is for strings. A round with it makes the same files, and drops one contribution. -/
theorem round_put_withMethod_sample :
    ∃ t ∈ (sampleIndex ["bindWidget"]).types, t.name = ⟨"com.app", "FeatureModule", []⟩ ∧
      let text : MethodElement :=
        ⟨"bindText", .declared .string, [⟨({} : MarkerNames).contributeInjector, []⟩]⟩
      let more := (sampleIndex ["bindWidget"]).put (t.withMethod 0 text)
      let s := Session.start {} MemoryFiler.empty
      s.handed MemoryFiler.write [more] = s.handed MemoryFiler.write [sampleIndex ["bindWidget"]] ∧
      (s.round MemoryFiler.write more).1.dropped = 1 := by
  refine ⟨_, .tail _ (.tail _ (.tail _ (.head _))), rfl, ?_⟩
  intro text more s
  obtain ⟨-, -, hhanded, -, -, houtcome, -⟩ :=
    round_put_withMethod MemoryFiler.write s (sampleIndex ["bindWidget"])
      (.tail _ (.tail _ (.tail _ (.head _)))) (fun h => absurd h.1 (by decide)) 0
      (m := text) (by decide) (by decide) (by decide) (by decide +kernel)
  refine ⟨hhanded, ?_⟩
  rw [houtcome]
  decide +kernel

end Multibinding
