import Multibinding.Binding.Module
import Multibinding.Emission.Filer

/-!
# Rounds

A processor runs over one index after another. In each round it collects the keys first, then
resolves the contributions, and then hands the generated files to a filer: a module for each
contribution, one that includes them all, and, in the first round only, the one that declares the
maps. What a round plans does not depend on the filer, whose refusals stop nothing.
-/

namespace Multibinding

open Java (SourceFile)

/-- What a processor keeps from round to round. -/
structure Processor where
  /-- The configuration. -/
  config : Config
  /-- The keys that contributions are bound through. -/
  registry : KeyRegistry
  /-- How many rounds have been run. -/
  rounds : Nat
  /-- Whether the module that declares the maps has been handed over. -/
  injectionModuleWritten : Bool

/-- What a round does, apart from what becomes of its files. -/
structure RoundPlan where
  /-- The keys that contributions are bound through. -/
  registry : KeyRegistry
  /-- The contributions in their order. -/
  contributions : List Contribution
  /-- How many contributions could not be bound. -/
  dropped : Nat
  /-- The reports on keys and contributions. -/
  diagnostics : List Diagnostic
  /-- The files to hand over, in their order. -/
  files : List SourceFile

/-- The outcome of a round. -/
structure RoundOutcome where
  /-- The number of the round, from one on. -/
  round : Nat
  /-- How many keys are registered. -/
  keys : Nat
  /-- The files that the filer has taken. -/
  generated : List ClassName
  /-- The files that the filer has not taken. -/
  failed : List ClassName
  /-- How many contributions could not be bound. -/
  dropped : Nat
  /-- The declarations that are put off to a later round, of which there are none. -/
  claimed : List Element
deriving DecidableEq

namespace Processor

/-- The processor before its first round. -/
def ofConfig (config : Config) : Processor :=
  { config, registry := .empty, rounds := 0, injectionModuleWritten := false }

/-- The registry that a round over an index binds contributions through. -/
def nextRegistry (p : Processor) (index : DeclarationIndex) : KeyRegistry :=
  KeyCollection.into p.config index
    (match p.config.registryMode with
      -- The keys of earlier indexes are forgotten or kept.
      | .rebuild => .empty
      | .merge => p.registry)

/-- The module that declares the maps, unless it has been handed over or none is wanted. -/
def injectionModule? (p : Processor) : Option ClassName :=
  if p.injectionModuleWritten then none else p.config.injectionModule

/-- What a round over an index does. -/
def plan (p : Processor) (index : DeclarationIndex) : RoundPlan :=
  let registry := p.nextRegistry index
  let resolutions := Contribution.resolutions p.config index registry
  let contributions := resolutions.filterMap Except.toOption
  let reports := resolutions.filterMap fun
    | .ok _ => none
    | .error report => some report
  { registry
    contributions
    dropped := reports.length
    diagnostics :=
      KeyCollection.diagnostics p.config index (KeyCollection.registries p.config index) ++ reports
    -- The module that includes the others is handed over after them.
    files :=
      contributions.map (·.file p.config) ++
      (AggregateModule.ofContributions? contributions).toList.map (·.file p.config) ++
      p.injectionModule?.toList.map (InjectionModule.file p.config) }

/-- The processor after a round. -/
def after (p : Processor) (plan : RoundPlan) : Processor :=
  { p with
    registry := plan.registry
    rounds := p.rounds + 1
    -- Handing the module over counts, whether or not the filer takes it.
    injectionModuleWritten := p.injectionModuleWritten || p.config.injectionModule.isSome }

/-- The outcome of a round, given for each file in its order whether the filer has taken it. -/
def outcome (p : Processor) (plan : RoundPlan) (taken : List Bool) : RoundOutcome :=
  let results := plan.files.zip taken
  { round := p.rounds + 1
    keys := plan.registry.size
    generated := (results.filter (·.2)).map (·.1.name)
    failed := (results.filter (!·.2)).map (·.1.name)
    dropped := plan.dropped
    claimed := [] }

variable {m : Type → Type} [Monad m]

/-- Hands files to a filer, one after another, and tells which it has taken. -/
def handOver (write : Filer m) : List SourceFile → m (List Bool)
  | [] => return []
  | file :: rest => do
    let result ← write file
    return result.toBool :: (← handOver write rest)

/-- Runs a round over an index, and returns its outcome, its reports, and the processor after
it. -/
def processRound (write : Filer m) (p : Processor) (index : DeclarationIndex) :
    m (RoundOutcome × List Diagnostic × Processor) := do
  let plan := p.plan index
  let taken ← handOver write plan.files
  return (p.outcome plan taken, plan.diagnostics, p.after plan)

end Processor

end Multibinding
