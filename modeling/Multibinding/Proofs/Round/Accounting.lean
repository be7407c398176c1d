import Multibinding.Proofs.Round.Plan

/-!
# Accounting of a round

Everything that a round is given is accounted for once: each marked method contributes or is
reported, each listed key type is a key or is reported, and each file that is handed over counts
as generated or as failed, whatever the filer answers.

* `length_diagnostics`, `length_diagnostics_plan`: how many reports a round makes;
* `kind_of_mem_diagnostics_plan`: all of them are errors;
* `round_accounting`: the outcome of a round and the reports that it adds.
-/

namespace Multibinding

namespace KeyCollection

variable {config : Config} {index : DeclarationIndex}

/-- The listed types that have no key. -/
def malformed (config : Config) (index : DeclarationIndex) (types : List TypeRef) : List TypeRef :=
  types.filter fun type => ¬∃ key, IsKeyOf config index type key

/-- Each listed type without a key is reported once. -/
theorem length_diagnostics (elements : List Element) :
    (diagnostics config index elements).length =
      (malformed config index (elements.flatMap (declaredTypes config index))).length := by
  rw [diagnostics, entries, malformed, List.filterMap_flatMap, List.filter_flatMap,
    List.length_flatMap, List.length_flatMap]
  congr 2
  funext element
  rw [List.filterMap_map, List.length_filterMap_eq_countP, ← List.countP_eq_length_filter]
  refine List.countP_congr fun type _ => ?_
  rw [Function.comp_apply, decide_eq_true_iff]
  -- A type is reported exactly if looking for its key fails.
  cases hof : InjectorKey.ofType config index type with
  | ok key =>
    refine iff_of_false (by simp) ?_
    exact not_not_intro ⟨key, InjectorKey.ofType_eq_ok_iff.mp hof⟩
  | error e =>
    refine iff_of_true rfl ?_
    rintro ⟨key, hkey⟩
    rw [InjectorKey.ofType_eq_ok_iff.mpr hkey] at hof
    cases hof

/-- Reports on keys are errors. -/
theorem kind_of_mem_diagnostics {elements : List Element} {report : Diagnostic}
    (h : report ∈ diagnostics config index elements) : report.kind = .error := by
  obtain ⟨⟨element, result⟩, -, h⟩ := List.mem_filterMap.mp h
  cases result with
  | ok key => cases h
  | error e => cases h; rfl

end KeyCollection

/-- Reports on contributions are errors. -/
theorem Contribution.kind_of_error_mem_resolutions {config : Config} {index : DeclarationIndex}
    {registry : KeyRegistry} {report : Diagnostic}
    (h : .error report ∈ resolutions config index registry) : report.kind = .error := by
  obtain ⟨element, -, h⟩ := List.mem_filterMap.mp h
  cases element with
  | type name => cases h
  | method owner name =>
    rw [ofElement?, Option.some.injEq] at h
    cases hof : ofMethod config index registry owner name with
    | ok c => rw [hof] at h; cases h
    | error e => rw [hof] at h; cases h; rfl

namespace Processor

variable (p : Processor) (index : DeclarationIndex)

/-- A round reports each listed type without a key and each dropped contribution. -/
theorem length_diagnostics_plan :
    (p.plan index).diagnostics.length =
      (KeyCollection.malformed p.config index
        ((KeyCollection.registries p.config index).flatMap
          (KeyCollection.declaredTypes p.config index))).length +
      (p.plan index).dropped := by
  rw [← KeyCollection.length_diagnostics]
  exact List.length_append

/-- All reports of a round are errors. -/
theorem kind_of_mem_diagnostics_plan {report : Diagnostic}
    (h : report ∈ (p.plan index).diagnostics) : report.kind = .error := by
  -- The reports on keys come before those on contributions.
  rcases List.mem_append.mp h with h | h
  · exact KeyCollection.kind_of_mem_diagnostics h
  · obtain ⟨result, hresult, h⟩ := List.mem_filterMap.mp h
    cases result with
    | ok c => cases h
    | error e =>
      cases h
      exact Contribution.kind_of_error_mem_resolutions hresult

end Processor

/-- The accounts of a round. Every marked method contributes or is dropped. The files are attempted
in the order of the contributions, followed by the module that includes them if there are any, and
by the module that declares the maps if one is wanted that has not been handed over; each attempt
counts as generated or as failed, by what the filer answers. The reports made before are kept, and
an error is added for each listed type that has no key and for each dropped contribution. -/
theorem round_accounting {σ : Type} (write : Filer (StateM σ)) (s : Session σ)
    (index : DeclarationIndex) :
    let config := s.processor.config
    let marked := index.elementsAnnotatedWith config.markers.contributeInjector
    let listed := (KeyCollection.registries config index).flatMap
      (KeyCollection.declaredTypes config index)
    let injection := if s.processor.injectionModuleWritten then none else config.injectionModule
    let attempts := (s.handed write [index]).map fun (file, taken) => (file.name, taken)
    let outcome := (s.round write index).1
    let next := (s.round write index).2
    ∃ (contributions : List Contribution) (reports : List Diagnostic),
      contributions =
        marked.filterMap (Contribution.resolve? config index (s.processor.nextRegistry index)) ∧
      (contributions.map Contribution.element).Sublist marked ∧
      outcome.dropped + contributions.length = (marked.filter Element.isMethod).length ∧
      attempts.map (·.1) =
        contributions.map Contribution.moduleName ++
          (contributions.head?.map (·.container.contributionsModule)).toList ++
            injection.toList ∧
      outcome.generated = (attempts.filter (·.2)).map (·.1) ∧
      outcome.failed = (attempts.filter (!·.2)).map (·.1) ∧
      next.processor.injectionModuleWritten =
        (s.processor.injectionModuleWritten || injection.isSome) ∧
      next.reports = s.reports ++ reports ∧
      reports.length = (KeyCollection.malformed config index listed).length + outcome.dropped ∧
      (∀ report ∈ reports, report.kind = .error) ∧
      outcome.claimed = [] := by
  intro config marked listed injection attempts outcome next
  -- The attempts are the files of the plan, each with the answer of the filer to it.
  have hattempts : attempts = ((s.processor.plan index).files.zip
      ((Processor.handOver write (s.processor.plan index).files).run s.filing).1).map
        fun (file, taken) => (file.name, taken) := by
    rw [← Session.handed_singleton]
  refine ⟨(s.processor.plan index).contributions, (s.processor.plan index).diagnostics,
    s.processor.contributions_plan index, s.processor.map_element_contributions_sublist index,
    s.processor.dropped_add_length_contributions index, ?_, ?_, ?_, ?_, rfl,
    s.processor.length_diagnostics_plan index,
    fun report => s.processor.kind_of_mem_diagnostics_plan index, rfl⟩
  · have hfiles := congrArg (List.map (·.name)) (s.map_fst_handed_singleton write index)
    rw [s.processor.map_name_files, List.map_map] at hfiles
    rw [List.map_map]
    exact hfiles
  · rw [hattempts, List.filter_map, List.map_map]
    rfl
  · rw [hattempts, List.filter_map, List.map_map]
    rfl
  · show (_ || config.injectionModule.isSome) = _
    cases hwritten : s.processor.injectionModuleWritten <;> simp [injection, hwritten]

end Multibinding
