import Multibinding.Proofs.Binding.Members
import Multibinding.Proofs.Round.Plan

/-!
# What a run plans

The files of a run are the modules of the contributions of its rounds, the modules that include
them, and the module that declares the maps, which only the first round hands over.

* `InjectionModule.file_ne_contribution`, `InjectionModule.file_ne_aggregate`: the module that
  declares the maps differs from all others;
* `mem_files_plans_iff`: the files of a run;
* `forall_files_plans_name_ne_iff`: which names they do not have;
* `plans_eq_append`: the first rounds of a run are a run.
-/

namespace Multibinding

open Java (SourceFile)

/-- A module that includes others is made for the contributions that it includes, of which there are
some. -/
theorem AggregateModule.contributions_of_mem {contributions : List Contribution}
    {a : AggregateModule} (h : a ∈ ofContributions? contributions) :
    a.contributions = contributions ∧ contributions ≠ [] := by
  cases contributions with
  | nil => cases h
  | cons c rest =>
    obtain rfl := Option.some.inj h
    exact ⟨rfl, List.cons_ne_nil c rest⟩

/-- For a contribution, such a module is made. -/
theorem AggregateModule.exists_of_mem {contributions : List Contribution} {c : Contribution}
    (h : c ∈ contributions) : ∃ a, a ∈ ofContributions? contributions := by
  cases contributions with
  | nil => cases h
  | cons first rest => exact ⟨_, rfl⟩

/-- That module includes the modules of the contributions of the round, and no others. -/
theorem RoundPlan.mem_includes_iff {config : Config} {plan : RoundPlan} {a : AggregateModule}
    (ha : a ∈ plan.aggregate?) {name : ClassName} :
    classMember name ∈ (a.file config).includes ↔
      ∃ c ∈ plan.contributions, c.moduleName = name := by
  rw [AggregateModule.mem_includes_file, AggregateModule.mem_moduleNames,
    (AggregateModule.contributions_of_mem ha).1]

namespace InjectionModule

/-- The module of a contribution has a subcomponent, which the module that declares the maps has
not. -/
theorem file_ne_contribution (config : Config) (c : Contribution) (name : ClassName) :
    c.file config ≠ file config name :=
  fun h => by cases congrArg (·.type.types) h

/-- A module that includes others has a constructor, which the module that declares the maps has
not. -/
theorem file_ne_aggregate (config : Config) (a : AggregateModule) (name : ClassName) :
    a.file config ≠ file config name :=
  fun h => by cases congrArg (·.type.methods) h

end InjectionModule

namespace Processor

variable {p : Processor}

/-- After a round, no module that declares the maps is to be handed over. -/
theorem injectionModule?_after (p : Processor) (plan : RoundPlan) :
    (p.after plan).injectionModule? = none := by
  rw [injectionModule?, after]
  cases p.config.injectionModule <;> simp

/-- The files of a round. -/
theorem mem_files_plan_iff {index : DeclarationIndex} {file : SourceFile} :
    file ∈ (p.plan index).files ↔
      (∃ c ∈ (p.plan index).contributions, c.file p.config = file) ∨
      (∃ a ∈ (p.plan index).aggregate?, a.file p.config = file) ∨
      ∃ name ∈ p.injectionModule?, InjectionModule.file p.config name = file := by
  rw [files_plan, List.mem_append, List.mem_append, or_assoc, List.mem_map, List.mem_map,
    List.mem_map]
  simp only [Option.mem_toList]
  rfl

/-- The files of a run. -/
theorem mem_files_plans_iff {indexes : List DeclarationIndex} {file : SourceFile} :
    file ∈ (p.plans indexes).flatMap (·.files) ↔
      (∃ plan ∈ p.plans indexes, ∃ c ∈ plan.contributions, c.file p.config = file) ∨
      (∃ plan ∈ p.plans indexes, ∃ a ∈ plan.aggregate?, a.file p.config = file) ∨
      (p.plans indexes ≠ [] ∧
        ∃ name ∈ p.injectionModule?, InjectionModule.file p.config name = file) := by
  induction indexes generalizing p with
  | nil => simp [plans]
  | cons index rest ih =>
    -- Only the first round can hand over the module that declares the maps.
    have hconfig : (p.after (p.plan index)).config = p.config := rfl
    rw [plans, List.flatMap_cons, List.mem_append, mem_files_plan_iff, ih, injectionModule?_after,
      hconfig]
    simp only [List.mem_cons, exists_eq_or_imp, Option.not_mem_none, false_and, exists_false,
      and_false, or_false, ne_eq, reduceCtorEq, not_false_eq_true, true_and]
    constructor
    · rintro ((h | h | h) | h | h)
      · exact Or.inl (Or.inl h)
      · exact Or.inr (Or.inl (Or.inl h))
      · exact Or.inr (Or.inr h)
      · exact Or.inl (Or.inr h)
      · exact Or.inr (Or.inl (Or.inr h))
    · rintro ((h | h) | (h | h) | h)
      · exact Or.inl (Or.inl h)
      · exact Or.inr (Or.inl h)
      · exact Or.inl (Or.inr (Or.inl h))
      · exact Or.inr (Or.inr h)
      · exact Or.inl (Or.inr (Or.inr h))

/-- Only the first one of two rounds hands over the module that declares the maps. -/
example :
    let config : Config := { injectionModule := some ⟨"com.app", "Maps", []⟩ }
    (((ofConfig config).plans [.empty, .empty]).map fun plan => plan.files.map (·.name)) =
      [[⟨"com.app", "Maps", []⟩], []] := by
  decide +kernel

/-- The plans of the first rounds of a run. -/
theorem take_plans (p : Processor) (indexes : List DeclarationIndex) (n : Nat) :
    (p.plans indexes).take n = p.plans (indexes.take n) := by
  induction indexes generalizing p n with
  | nil => simp [plans]
  | cons index rest ih =>
    cases n with
    | zero => rfl
    | succ n => rw [plans, List.take_succ_cons, List.take_succ_cons, plans, ih]

/-- The first rounds of a run are a run. -/
theorem plans_eq_append {indexes : List DeclarationIndex} {before after : List RoundPlan}
    (h : p.plans indexes = before ++ after) : ∃ earlier, p.plans earlier = before := by
  refine ⟨indexes.take before.length, ?_⟩
  rw [← take_plans, h, List.take_left]

/-- The files of a round of a run. Only what follows the module that includes the others depends on
the rounds before. -/
theorem files_of_mem_plans {indexes : List DeclarationIndex} {plan : RoundPlan}
    (h : plan ∈ p.plans indexes) :
    ∃ rest, plan.files =
      plan.contributions.map (·.file p.config) ++
        (plan.aggregate?.toList.map (·.file p.config) ++ rest) := by
  induction indexes generalizing p with
  | nil => cases h
  | cons index indexes ih =>
    rcases List.mem_cons.mp h with rfl | h
    · exact ⟨_, List.append_assoc ..⟩
    · exact ih (p := p.after (p.plan index)) h

/-- None of the files of a run has a name exactly if no module of a contribution has it, none that
includes others has it, and it is not that of the module that declares the maps, or there is no
round. -/
theorem forall_files_plans_name_ne_iff {indexes : List DeclarationIndex} {name : ClassName} :
    (∀ file ∈ (p.plans indexes).flatMap (·.files), file.name ≠ name) ↔
      (∀ plan ∈ p.plans indexes, ∀ c ∈ plan.contributions, c.moduleName ≠ name) ∧
      (∀ plan ∈ p.plans indexes, ∀ a ∈ plan.aggregate?, a.name ≠ name) ∧
      (p.plans indexes = [] ∨ name ∉ p.injectionModule?) := by
  constructor
  · intro h
    refine ⟨?_, ?_, ?_⟩
    · intro plan hplan c hc
      exact h (c.file p.config) (mem_files_plans_iff.mpr (Or.inl ⟨plan, hplan, c, hc, rfl⟩))
    · intro plan hplan a ha
      exact h (a.file p.config)
        (mem_files_plans_iff.mpr (Or.inr (Or.inl ⟨plan, hplan, a, ha, rfl⟩)))
    · by_cases hnil : p.plans indexes = []
      · exact Or.inl hnil
      · refine Or.inr fun hname => ?_
        exact h (InjectionModule.file p.config name)
          (mem_files_plans_iff.mpr (Or.inr (Or.inr ⟨hnil, name, hname, rfl⟩))) rfl
  · rintro ⟨hmodules, haggregates, hinjection⟩ file hfile
    rcases mem_files_plans_iff.mp hfile with
      ⟨plan, hplan, c, hc, rfl⟩ | ⟨plan, hplan, a, ha, rfl⟩ | ⟨hne, other, hother, rfl⟩
    · exact hmodules plan hplan c hc
    · exact haggregates plan hplan a ha
    · rintro rfl
      exact hinjection.elim hne fun hnot => hnot hother

end Processor

end Multibinding
