import Multibinding.Proofs.Declaration.Enumeration
import Multibinding.Proofs.Emission.Memory
import Multibinding.Proofs.Name.Generated
import Multibinding.Proofs.Round.Plan

/-!
# Name clashes in a round

A filer takes one file of each name, but the names of the files of a round need not differ. The
modules of two contributions have one name where their containers and methods only differ in what is
joined or capitalized, and the module of a method `contributions` has the name of the module that is
to include it. The later file is then lost.

* `failed_outcome_eq_nil_iff`: nothing fails exactly if every file is taken;
* `names_distinct_iff`: when the names of the files of a round differ;
* `names_distinct_of_plainlyNamed`: which names of declarations are enough for that;
* `get?_round`: which file of a round is held under a name;
* `all_held_iff_names_distinct`: when every file of a round is held.
-/

namespace Multibinding

open Java (SourceFile)

/-- What keeps the names that are generated for a contribution from those of others: nothing in the
names of its container and its method can be taken for a part that is joined or capitalized, and its
module is not named like one that includes others. -/
structure Contribution.PlainlyNamed (c : Contribution) : Prop where
  container : c.container.UnderscoreFree
  method : '_' ∉ c.method.toList
  capital : startsWithCapital c.method = false
  ne_contributions : c.method ≠ "contributions"

namespace Processor

variable {p : Processor} {index : DeclarationIndex}

/-- No file fails exactly if every one is taken. -/
theorem failed_outcome_eq_nil_iff {plan : RoundPlan} {taken : List Bool}
    (hlength : taken.length = plan.files.length) :
    (p.outcome plan taken).failed = [] ↔ ∀ answer ∈ taken, answer = true := by
  have hsnd : (plan.files.zip taken).map (·.2) = taken :=
    List.map_snd_zip (Nat.le_of_eq hlength)
  rw [outcome, List.map_eq_nil_iff, List.filter_eq_nil_iff]
  conv_rhs => rw [← hsnd, List.forall_mem_map]
  simp

/-- Without a module that declares the maps, a round hands over the modules of the contributions and
the one that includes them. -/
theorem files_plan_of_injectionModule_eq_none (hinjection : p.config.injectionModule = none) :
    (p.plan index).files =
      (p.plan index).contributions.map (·.file p.config) ++
        (p.plan index).aggregate?.toList.map (·.file p.config) := by
  have hnone : p.injectionModule? = none := by
    rw [injectionModule?, hinjection, ite_self]
  rw [files_plan, hnone, Option.toList_none, List.map_nil, List.append_nil]

/-- The names of the files differ exactly if those of the modules do and none is that of the module
that includes them. -/
theorem names_distinct_iff (hinjection : p.config.injectionModule = none) :
    ((p.plan index).files.map (·.name)).Nodup ↔
      ((p.plan index).contributions.map Contribution.moduleName).Nodup ∧
        ∀ a ∈ (p.plan index).aggregate?, ∀ c ∈ (p.plan index).contributions,
          c.moduleName ≠ a.name := by
  rw [files_plan_of_injectionModule_eq_none hinjection, List.map_append, List.map_map,
    List.map_map, List.nodup_append]
  refine and_congr_right fun _ => ?_
  cases (p.plan index).aggregate? with
  | none => simp
  | some a =>
    constructor
    · rintro ⟨-, hne⟩ b ⟨rfl⟩ c hc
      exact hne c.moduleName (List.mem_map_of_mem hc) a.name (List.mem_singleton_self _)
    · intro hne
      refine ⟨List.nodup_singleton _, ?_⟩
      intro name hname other hother
      obtain ⟨c, hc, rfl⟩ := List.mem_map.mp hname
      rw [List.mem_singleton.mp hother]
      exact hne a rfl c hc

/-- The names of the files of a round differ if all contributions are plainly named. -/
theorem names_distinct_of_plainlyNamed (hmethods : index.MethodsDistinct)
    (h : ∀ c ∈ (p.plan index).contributions, c.PlainlyNamed) :
    ((p.plan index).contributions.map Contribution.moduleName).Nodup ∧
      ∀ a ∈ (p.plan index).aggregate?, ∀ c ∈ (p.plan index).contributions,
        c.moduleName ≠ a.name := by
  have helements : ((p.plan index).contributions.map Contribution.element).Nodup :=
    (p.map_element_contributions_sublist index).nodup
      (DeclarationIndex.nodup_elementsAnnotatedWith hmethods _)
  rw [RoundPlan.aggregate?]
  generalize (p.plan index).contributions = contributions at h helements
  constructor
  · -- Contributions of one module would come from one method.
    refine List.pairwise_map.mpr ((List.pairwise_map.mp helements).imp_of_mem ?_)
    intro c d hc hd hne hmodule
    obtain ⟨hcontainer, hmethod⟩ := ClassName.generatedModule_inj (h c hc).container
      (h d hd).container (h c hc).method (h d hd).method (h c hc).capital (h d hd).capital hmodule
    exact hne (by rw [Contribution.element, Contribution.element, hcontainer, hmethod])
  · intro a ha c hc hname
    cases contributions with
    | nil => cases ha
    | cons first rest =>
      obtain rfl := Option.some.inj ha
      exact (h c hc).ne_contributions (ClassName.eq_contributions_of_generatedModule_eq
        (h c hc).container (h first List.mem_cons_self).container (h c hc).method
        (h c hc).capital hname).2

end Processor

section Held

variable {s : Session MemoryFiler} {index : DeclarationIndex} (hfresh : s.filing = .empty)
include hfresh

/-- After a round with a memory filer that is empty, the filer holds the source of the first file of
each name. -/
theorem get?_round (name : ClassName) :
    (s.round MemoryFiler.write index).2.filing.get? name =
      ((s.processor.plan index).files.find? (·.name == name)).map (·.source) := by
  rw [Session.round_eq]
  show ((Processor.handOver (m := StateM MemoryFiler) MemoryFiler.write
    (s.processor.plan index).files).run s.filing).2.get? name = _
  rw [MemoryFiler.get?_handOver, hfresh]
  exact Option.none_or

/-- No file of the round fails exactly if their names differ. -/
theorem failed_round_eq_nil_iff :
    (s.round MemoryFiler.write index).1.failed = [] ↔
      ((s.processor.plan index).files.map (·.name)).Nodup := by
  rw [Session.round_eq, Processor.failed_outcome_eq_nil_iff (Processor.length_handOver ..),
    MemoryFiler.forall_taken_iff, hfresh]
  exact and_iff_left fun _ _ => rfl

/-- If their names differ, each file of the round is held. -/
theorem get?_round_of_mem (hnodup : ((s.processor.plan index).files.map (·.name)).Nodup)
    {file : SourceFile} (hfile : file ∈ (s.processor.plan index).files) :
    (s.round MemoryFiler.write index).2.filing.get? file.name = some file.source := by
  rw [get?_round hfresh, (find?_key_eq_some_iff hnodup).mpr ⟨hfile, rfl⟩, Option.map_some]

end Held

/-- A round with a memory filer that is empty. Under each name, the filer then holds the source of
the first file that has it. So nothing fails and every contribution and the module that includes
them are held exactly if no two modules of contributions have one name and none has the name of the
module that includes them. They have not if all contributions are plainly named. -/
theorem all_held_iff_names_distinct (s : Session MemoryFiler) (index : DeclarationIndex)
    (hfresh : s.filing = .empty) (hinjection : s.processor.config.injectionModule = none)
    (hmethods : index.MethodsDistinct) :
    let config := s.processor.config
    let plan := s.processor.plan index
    let outcome := (s.round MemoryFiler.write index).1
    let filer := (s.round MemoryFiler.write index).2.filing
    let files :=
      plan.contributions.map (·.file config) ++ plan.aggregate?.toList.map (·.file config)
    let distinct := (plan.contributions.map Contribution.moduleName).Nodup ∧
      ∀ a ∈ plan.aggregate?, ∀ c ∈ plan.contributions, c.moduleName ≠ a.name
    (s.handed MemoryFiler.write [index]).map (·.1) = files ∧
    (∀ name, filer.get? name = (files.find? (·.name == name)).map (·.source)) ∧
    ((outcome.failed = [] ∧
        (∀ c ∈ plan.contributions, filer.get? c.moduleName = some (c.file config).source) ∧
        ∀ a ∈ plan.aggregate?, filer.get? a.name = some (a.file config).source) ↔
      distinct) ∧
    ((∀ c ∈ plan.contributions, c.PlainlyNamed) → distinct) := by
  intro config plan outcome filer files distinct
  have hfiles : plan.files = files := Processor.files_plan_of_injectionModule_eq_none hinjection
  have hdistinct : (plan.files.map (·.name)).Nodup ↔ distinct :=
    Processor.names_distinct_iff hinjection
  refine ⟨(s.map_fst_handed_singleton MemoryFiler.write index).trans hfiles, ?_, ⟨?_, ?_⟩,
    Processor.names_distinct_of_plainlyNamed hmethods⟩
  · rw [← hfiles]
    -- A new filer refuses a file only for an earlier one of its name.
    exact get?_round hfresh
  · rintro ⟨hnone, -⟩
    exact hdistinct.mp ((failed_round_eq_nil_iff hfresh).mp hnone)
  · intro h
    have hnodup := hdistinct.mpr h
    refine ⟨(failed_round_eq_nil_iff hfresh).mpr hnodup, ?_, ?_⟩
    · intro c hc
      have hfile : c.file config ∈ files := List.mem_append_left _ (List.mem_map_of_mem hc)
      exact get?_round_of_mem hfresh hnodup (hfiles ▸ hfile)
    · intro a ha
      have hfile : a.file config ∈ files :=
        List.mem_append_right _ (List.mem_map_of_mem (Option.mem_toList.mpr ha))
      exact get?_round_of_mem hfresh hnodup (hfiles ▸ hfile)

/-- In the round over the sample application with two contributions, the names of the three files
differ, and the sources of all of them are held. -/
theorem all_held_sample :
    let index := sampleIndex ["bindWidget", "bindGadget"]
    let start := Session.start {} MemoryFiler.empty
    let plan := start.processor.plan index
    let outcome := (start.round MemoryFiler.write index).1
    let filer := (start.round MemoryFiler.write index).2.filing
    plan.files.map (·.name) =
        [⟨"com.app", "FeatureModule_BindWidget", []⟩,
          ⟨"com.app", "FeatureModule_BindGadget", []⟩,
          ⟨"com.app", "FeatureModule_Contributions", []⟩] ∧
      outcome.failed = [] ∧
      (∀ c ∈ plan.contributions, filer.get? c.moduleName = some (c.file {}).source) ∧
      ∀ a ∈ plan.aggregate?, filer.get? a.name = some (a.file {}).source := by
  intro index start plan outcome filer
  have hplain : ∀ c ∈ plan.contributions, c.PlainlyNamed := by
    have hnames : ∀ c ∈ plan.contributions, c.container = ⟨"com.app", "FeatureModule", []⟩ ∧
        (c.method = "bindWidget" ∨ c.method = "bindGadget") := by
      decide +kernel
    intro c hc
    obtain ⟨hcontainer, hmethod | hmethod⟩ := hnames c hc
    all_goals
      exact ⟨hcontainer ▸ by decide, hmethod ▸ by decide, hmethod ▸ by decide,
        hmethod ▸ by decide⟩
  obtain ⟨-, -, hheld, hdistinct⟩ :=
    all_held_iff_names_distinct start index rfl rfl (by decide)
  exact ⟨by decide +kernel, hheld.mpr (hdistinct hplain)⟩

/-- Three methods whose names are identifiers and differ, in a round with a filer that is empty. The
module of the second one has the name of that of the first, and the module of the third that of the
module that includes them, so that two of four files are lost. -/
theorem names_not_distinct_sample :
    (sampleIndex ["bindWidget", "BindWidget", "contributions"]).MethodsDistinct ∧
    (["bindWidget", "BindWidget", "contributions"].all isIdentifier) ∧
    ((Session.start {} MemoryFiler.empty).round MemoryFiler.write
      (sampleIndex ["bindWidget", "BindWidget", "contributions"])).1.failed =
        [⟨"com.app", "FeatureModule_BindWidget", []⟩,
          ⟨"com.app", "FeatureModule_Contributions", []⟩] := by
  refine ⟨by decide, by decide +kernel, by decide +kernel⟩

end Multibinding
