import Multibinding.Proofs.Round.Filing
import Multibinding.Proofs.Round.Runs

/-!
# The module that declares the maps in a run

The module that declares the maps is handed over in the first round of a processor and in no other
one. The processor takes note that it has handed the module over, and not of what the filer answers,
so that a module that is refused in the first round is given up.

* `Processor.file_mem_files_plan_iff`: when a round hands the module over;
* `Session.handed_cons`: what a run hands over, round by round;
* `injectionModule_handed_over_iff`: when the module is handed over, and when the filer has it.
-/

namespace Multibinding

open Java (SourceFile)

variable {σ : Type}

namespace Processor

/-- The configuration stays what it is. -/
theorem config_afterRounds (p : Processor) (indexes : List DeclarationIndex) :
    (p.afterRounds indexes).config = p.config := by
  induction indexes generalizing p with
  | nil => rfl
  | cons index rest ih => exact ih (p.after (p.plan index))

/-- That the module has been handed over is known from the first round on, if one is wanted. -/
theorem injectionModuleWritten_afterRounds (p : Processor) (indexes : List DeclarationIndex) :
    (p.afterRounds indexes).injectionModuleWritten =
      (p.injectionModuleWritten || (!indexes.isEmpty && p.config.injectionModule.isSome)) := by
  induction indexes generalizing p with
  | nil => exact (Bool.or_false _).symm
  | cons index rest ih =>
    have hfirst : (p.after (p.plan index)).injectionModuleWritten =
        (p.injectionModuleWritten || p.config.injectionModule.isSome) := rfl
    have hconfig : (p.after (p.plan index)).config = p.config := rfl
    have hafter : p.afterRounds (index :: rest) = (p.after (p.plan index)).afterRounds rest := rfl
    rw [hafter, ih, hfirst, hconfig]
    cases p.injectionModuleWritten <;> cases p.config.injectionModule.isSome <;> simp

variable {p : Processor} {name : ClassName}

/-- A round hands over the module that declares the maps if one is wanted that has not been handed
over. -/
theorem file_mem_files_plan_iff {index : DeclarationIndex} :
    InjectionModule.file p.config name ∈ (p.plan index).files ↔ p.injectionModule? = some name := by
  rw [mem_files_plan_iff]
  constructor
  · rintro (⟨c, -, h⟩ | ⟨a, -, h⟩ | ⟨other, hother, h⟩)
    · exact absurd h (InjectionModule.file_ne_contribution p.config c name)
    · exact absurd h (InjectionModule.file_ne_aggregate p.config a name)
    · obtain rfl : other = name := congrArg SourceFile.name h
      exact hother
  · exact fun hname => Or.inr (Or.inr ⟨name, hname, rfl⟩)

/-- Once it has been handed over, no round hands it over. -/
theorem file_notMem_files_plans (h : p.injectionModule? = none) (indexes : List DeclarationIndex) :
    InjectionModule.file p.config name ∉ (p.plans indexes).flatMap (·.files) := by
  rw [mem_files_plans_iff]
  rintro (⟨plan, -, c, -, heq⟩ | ⟨plan, -, a, -, heq⟩ | ⟨-, other, hother, -⟩)
  · exact InjectionModule.file_ne_contribution p.config c name heq
  · exact InjectionModule.file_ne_aggregate p.config a name heq
  · rw [h] at hother
    cases hother

end Processor

namespace Session

variable (write : Filer (StateM σ)) (s : Session σ)

/-- A run hands over the files of its first round, and then those of the others. -/
theorem handed_cons (index : DeclarationIndex) (rest : List DeclarationIndex) :
    s.handed write (index :: rest) =
      s.handed write [index] ++ (s.round write index).2.handed write rest := by
  rw [handed_eq, handed_singleton, handed_eq, Processor.plans, List.flatMap_cons,
    Processor.handOver_append]
  exact List.zip_append (Processor.length_handOver ..).symm

/-- A run hands over each file of its plans once and in its order. -/
theorem map_fst_handed (indexes : List DeclarationIndex) :
    (s.handed write indexes).map (·.1) = (s.processor.plans indexes).flatMap (·.files) := by
  rw [handed_eq, List.map_fst_zip]
  simp

end Session

/-- A run of a new processor that is to generate a module that declares the maps, and a further
round. The processor hands the module over in the first round and in no other one, and what it notes
is that there has been a round. So the filer has taken the module exactly if it took it in the first
round. If it did not, the module is given up: only before the first round, or if the filer took the
module then, it is handed over exactly as long as it has not been taken, and the processor's note
tells whether it has. -/
theorem injectionModule_handed_over_iff (write : Filer (StateM σ)) {config : Config}
    {name : ClassName} (hname : config.injectionModule = some name) (filing : σ)
    (earlier : List DeclarationIndex) (index : DeclarationIndex) :
    let start := Session.start config filing
    let s := (start.run write earlier).2
    let module := InjectionModule.file config name
    let handed := module ∈ (s.handed write [index]).map (·.1)
    let noted := s.processor.injectionModuleWritten = true
    let taken := (module, true) ∈ start.handed write earlier
    let takenFirst := (module, true) ∈ start.handed write (earlier.take 1)
    (handed ↔ earlier = []) ∧ (noted ↔ earlier ≠ []) ∧ (taken ↔ takenFirst) ∧
      ((handed ↔ ¬taken) ∧ (noted ↔ taken) ↔ earlier = [] ∨ takenFirst) := by
  intro start s module handed noted taken takenFirst
  have hprocessor : s.processor = (Processor.ofConfig config).afterRounds earlier :=
    start.processor_run write earlier
  have hconfig : s.processor.config = config := by
    rw [hprocessor]
    exact Processor.config_afterRounds _ _
  have hwritten : s.processor.injectionModuleWritten = !earlier.isEmpty := by
    rw [hprocessor, Processor.injectionModuleWritten_afterRounds]
    show (false || (!earlier.isEmpty && config.injectionModule.isSome)) = _
    rw [hname]
    simp
  have hhanded : handed ↔ earlier = [] := by
    show module ∈ (s.handed write [index]).map (·.1) ↔ _
    have hmodule : module = InjectionModule.file s.processor.config name := by rw [hconfig]
    rw [Session.map_fst_handed_singleton, hmodule, Processor.file_mem_files_plan_iff,
      Processor.injectionModule?, hwritten, hconfig, hname]
    cases earlier <;> simp
  have hnoted : noted ↔ earlier ≠ [] := by
    show s.processor.injectionModuleWritten = true ↔ _
    rw [hwritten]
    cases earlier <;> simp
  have htaken : taken ↔ takenFirst := by
    cases hearlier : earlier with
    | nil => simp [taken, takenFirst, hearlier]
    | cons first rest =>
      -- The rounds behind the first one do not hand the module over.
      have hlater : (module, true) ∉ (start.round write first).2.handed write rest := by
        intro hmem
        have hfile := List.mem_map_of_mem (f := (·.1)) hmem
        rw [Session.map_fst_handed] at hfile
        exact Processor.file_notMem_files_plans (Processor.injectionModule?_after _ _) rest hfile
      show (module, true) ∈ start.handed write earlier ↔
        (module, true) ∈ start.handed write (earlier.take 1)
      rw [hearlier, Session.handed_cons, List.mem_append]
      exact or_iff_left hlater
  have hempty : earlier = [] → ¬taken := by
    intro hnil
    simp [taken, hnil, Session.handed_eq, Processor.plans]
  refine ⟨hhanded, hnoted, htaken, ?_⟩
  rw [hhanded, hnoted, ← htaken]
  by_cases hnil : earlier = [] <;> by_cases ht : taken
  · exact absurd ht (hempty hnil)
  all_goals simp [hnil, ht]

section Sample

/-- A configuration with a module that declares the maps. -/
def mapsConfig : Config :=
  { injectionModule := some ⟨"com.app", "Maps", []⟩ }

/-- A memory filer takes the module in the first round, and the second one does not hand it over. -/
theorem injectionModule_handed_over_sample :
    let start := Session.start mapsConfig MemoryFiler.empty
    let s := (start.run MemoryFiler.write [.empty]).2
    let module := InjectionModule.file mapsConfig ⟨"com.app", "Maps", []⟩
    (module, true) ∈ start.handed MemoryFiler.write [.empty] ∧
      module ∉ (s.handed MemoryFiler.write [.empty]).map (·.1) := by
  intro start s module
  have htaken : (module, true) ∈ start.handed MemoryFiler.write [.empty] :=
    List.mem_singleton_self _
  have hname : mapsConfig.injectionModule = some ⟨"com.app", "Maps", []⟩ := rfl
  obtain ⟨-, -, -, hkept⟩ := injectionModule_handed_over_iff MemoryFiler.write hname
    MemoryFiler.empty [.empty] .empty
  exact ⟨htaken, fun hhanded => (hkept.mpr (Or.inr htaken)).1.mp hhanded htaken⟩

/-- A filer that refuses one file and takes all others. Its state is whether it has refused the
one. -/
def refusingOnce : Filer (StateM Bool) := fun _ => do
  if ← get then return .ok ()
  else
    set true
    return .error (.io "" .permissionDenied)

/-- A filer refuses the module in the first round. The later rounds do not hand it over although the
filer would take it, and the processor notes it as written. -/
theorem injectionModule_given_up_sample :
    let run := (Session.start mapsConfig false).run refusingOnce [.empty, .empty, .empty]
    (run.1.map fun outcome => (outcome.generated, outcome.failed)) =
        [([], [⟨"com.app", "Maps", []⟩]), ([], []), ([], [])] ∧
      run.2.processor.injectionModuleWritten = true := by
  decide +kernel

end Sample

end Multibinding
