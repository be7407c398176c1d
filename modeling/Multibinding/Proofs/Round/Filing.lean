import Multibinding.Proofs.Emission.Record
import Multibinding.Proofs.Round.Plan

/-!
# What a run hands to its filer

Nothing that a filer answers comes back to the processor: in each round, it binds the same
contributions, makes the same reports and hands over the same files. A memory filer that starts
empty holds exactly what the rounds count as generated.

* `Session.processor_run`, `Session.reports_run`: a run, apart from its filer;
* `round_of_filers`: runs with two filers, round by round;
* `Session.names_run`: what a memory filer holds after a run;
* `taken_once`: each class is taken once, and what is held of it stays.
-/

namespace Multibinding

open Java (SourceFile)

variable {σ τ : Type}

/-- The processor after rounds over several indexes, whatever becomes of their files. -/
def Processor.afterRounds (p : Processor) (indexes : List DeclarationIndex) : Processor :=
  indexes.foldl (fun p index => p.after (p.plan index)) p

/-- The plans of a run in two parts. -/
theorem Processor.plans_append (p : Processor) (first rest : List DeclarationIndex) :
    p.plans (first ++ rest) = p.plans first ++ (p.afterRounds first).plans rest := by
  induction first generalizing p with
  | nil => rfl
  | cons index first ih =>
    rw [List.cons_append, plans, plans, ih, List.cons_append]
    rfl

namespace Session

/-- The processor after a run does not depend on the filer. -/
theorem processor_run (write : Filer (StateM σ)) (s : Session σ)
    (indexes : List DeclarationIndex) :
    (s.run write indexes).2.processor = s.processor.afterRounds indexes := by
  induction indexes generalizing s with
  | nil => rfl
  | cons index rest ih => exact ih (s.round write index).2

/-- A run makes the reports of its plans. -/
theorem reports_run (write : Filer (StateM σ)) (s : Session σ)
    (indexes : List DeclarationIndex) :
    (s.run write indexes).2.reports =
      s.reports ++ (s.processor.plans indexes).flatMap (·.diagnostics) := by
  induction indexes generalizing s with
  | nil => exact (List.append_nil _).symm
  | cons index rest ih =>
    have hrest := ih (s.round write index).2
    rw [Processor.plans, List.flatMap_cons, ← List.append_assoc]
    exact hrest

/-- The files of a round count as generated or as failed by what the filer answers. -/
theorem outcome_round (write : Filer (StateM σ)) (s : Session σ) (index : DeclarationIndex) :
    (s.round write index).1.generated =
        ((s.handed write [index]).filter (·.2)).map (·.1.name) ∧
      (s.round write index).1.failed =
        ((s.handed write [index]).filter (!·.2)).map (·.1.name) := by
  rw [handed_singleton]
  exact ⟨rfl, rfl⟩

end Session

/-- Runs of two new processors with the same configuration over the same indexes, each with a filer
of its own. After as many rounds, the processors are the same, so that they have the same registry,
and have made the same reports. In the next round they have as many keys, drop as many
contributions, and hand over the same files in the same order. Only which of these count as
generated and which as failed is up to the filers. -/
theorem round_of_filers (write : Filer (StateM σ)) (write' : Filer (StateM τ)) (config : Config)
    (filing : σ) (filing' : τ) (earlier : List DeclarationIndex) (index : DeclarationIndex) :
    let s := ((Session.start config filing).run write earlier).2
    let s' := ((Session.start config filing').run write' earlier).2
    let outcome := (s.round write index).1
    let outcome' := (s'.round write' index).1
    let handed := s.handed write [index]
    let handed' := s'.handed write' [index]
    s.processor = s'.processor ∧ s.reports = s'.reports ∧
    (s.round write index).2.processor = (s'.round write' index).2.processor ∧
    (s.round write index).2.reports = (s'.round write' index).2.reports ∧
    outcome.round = outcome'.round ∧ outcome.keys = outcome'.keys ∧
    outcome.dropped = outcome'.dropped ∧ outcome.claimed = outcome'.claimed ∧
    handed.map (·.1) = handed'.map (·.1) ∧
    outcome.generated = (handed.filter (·.2)).map (·.1.name) ∧
    outcome.failed = (handed.filter (!·.2)).map (·.1.name) ∧
    outcome'.generated = (handed'.filter (·.2)).map (·.1.name) ∧
    outcome'.failed = (handed'.filter (!·.2)).map (·.1.name) := by
  intro s s' outcome outcome' handed handed'
  have hprocessor : s.processor = s'.processor :=
    ((Session.start config filing).processor_run write earlier).trans
      ((Session.start config filing').processor_run write' earlier).symm
  have hreports : s.reports = s'.reports :=
    ((Session.start config filing).reports_run write earlier).trans
      ((Session.start config filing').reports_run write' earlier).symm
  -- What a round does apart from its filer is read off its plan.
  have hplan : s.processor.plan index = s'.processor.plan index := by rw [hprocessor]
  refine ⟨hprocessor, hreports, ?_, ?_, ?_, ?_, ?_, rfl, ?_, (s.outcome_round write index).1,
    (s.outcome_round write index).2, (s'.outcome_round write' index).1,
    (s'.outcome_round write' index).2⟩
  · show s.processor.after _ = s'.processor.after _
    rw [hprocessor]
  · show s.reports ++ (s.processor.plan index).diagnostics =
      s'.reports ++ (s'.processor.plan index).diagnostics
    rw [hreports, hplan]
  · show s.processor.rounds + 1 = s'.processor.rounds + 1
    rw [hprocessor]
  · show (s.processor.plan index).registry.size = (s'.processor.plan index).registry.size
    rw [hplan]
  · show (s.processor.plan index).dropped = (s'.processor.plan index).dropped
    rw [hplan]
  · rw [Session.map_fst_handed_singleton, Session.map_fst_handed_singleton, hplan]

namespace Session

variable (s : Session MemoryFiler)

/-- After a round, a memory filer holds what it held before and what the round counts as
generated. -/
theorem names_round (index : DeclarationIndex) :
    (s.round MemoryFiler.write index).2.filing.names =
      s.filing.names ++ (s.round MemoryFiler.write index).1.generated :=
  MemoryFiler.recording_write.record_handOver (s.processor.plan index).files s.filing

/-- After a run, it holds what it held before and what the rounds count as generated. -/
theorem names_run (indexes : List DeclarationIndex) :
    (s.run MemoryFiler.write indexes).2.filing.names =
      s.filing.names ++ (s.run MemoryFiler.write indexes).1.flatMap (·.generated) := by
  induction indexes generalizing s with
  | nil => exact (List.append_nil _).symm
  | cons index rest ih =>
    have hrest := ih (s.round MemoryFiler.write index).2
    rw [names_round, List.append_assoc] at hrest
    exact hrest

/-- It holds no class twice, if it did not before. -/
theorem nodup_names_run (hs : s.filing.names.Nodup) (indexes : List DeclarationIndex) :
    (s.run MemoryFiler.write indexes).2.filing.names.Nodup := by
  rw [filing_run]
  exact MemoryFiler.recording_write.nodup_record_handOver _ hs

/-- What it holds of a class stays what it is in all further rounds. -/
theorem get?_run_append {indexes : List DeclarationIndex} {name : ClassName} {source : String}
    (h : (s.run MemoryFiler.write indexes).2.filing.get? name = some source)
    (later : List DeclarationIndex) :
    (s.run MemoryFiler.write (indexes ++ later)).2.filing.get? name = some source := by
  have hplans : s.processor.plans (indexes ++ later) =
      s.processor.plans indexes ++ (s.processor.afterRounds indexes).plans later :=
    s.processor.plans_append indexes later
  rw [filing_run] at h ⊢
  rw [hplans, List.flatMap_append, Processor.handOver_append, MemoryFiler.get?_handOver, h,
    Option.some_or]

end Session

/-- Every filer takes each class once: whatever it is handed, and however often the disk of a
directory filer fails, a file is refused as taken exactly if one of its class has been taken before,
and a file that is not taken leaves the record as it is. So after any run of any processor, a memory
filer that was empty has the classes that the rounds count as generated, in their order and each of
them once, and it holds the same source of a class after all further rounds. -/
theorem taken_once (disk : Disk (StateM τ)) (root : String) (t : τ) (p : Processor)
    (reports : List Diagnostic) (indexes : List DeclarationIndex) :
    Filer.TakesOnce (σ := MemoryFiler) MemoryFiler.write MemoryFiler.names .empty ∧
    (DirectoryFiler.onDisk disk).TakesOnce (·.1.written) (.ofRoot root, t) ∧
    let s : Session MemoryFiler := { processor := p, reports, filing := .empty }
    let outcomes := (s.run MemoryFiler.write indexes).1
    let filer := (s.run MemoryFiler.write indexes).2.filing
    filer.names = outcomes.flatMap (·.generated) ∧ filer.names.Nodup ∧
    ∀ name source, filer.get? name = some source → ∀ later,
      (s.run MemoryFiler.write (indexes ++ later)).2.filing.get? name = some source := by
  refine ⟨MemoryFiler.recording_write.takesOnce rfl,
    (DirectoryFiler.recording_onDisk disk).takesOnce rfl, ?_⟩
  intro s outcomes filer
  refine ⟨?_, s.nodup_names_run List.nodup_nil indexes, ?_⟩
  · exact s.names_run indexes
  · exact fun name source hheld later => s.get?_run_append hheld later

end Multibinding
