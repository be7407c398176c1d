import Multibinding.Proofs.Binding.Registry
import Multibinding.Proofs.Round.Plan

/-!
# The registry in a run

A processor that rebuilds its registry starts every round as if it were its first one. A processor
that merges registries has collected the keys of all rounds so far, in the order of the rounds, and
adds to them only at the end. So what a method was once bound through, it stays bound through.

* `registry_afterTurns_of_merge`: what a merging processor has collected;
* `plan_congr`: a round depends on nothing of the processor but its registry;
* `registry_after_turn`: what the registry holds after any round;
* `resolve?_of_afterTurns`: a resolved contribution stays as it is.
-/

namespace Multibinding

/-- What a processor is given for a round: an index, the reports made so far, and a filer in some
state. Every round may have a filer of another kind. -/
structure Turn where
  /-- The declarations. -/
  index : DeclarationIndex
  /-- The reports made so far. -/
  reports : List Diagnostic
  {σ : Type}
  /-- The filer. -/
  write : Filer (StateM σ)
  /-- The state of the filer. -/
  filing : σ

namespace Processor

/-- A round of a processor over what it is given. -/
def turn (p : Processor) (t : Turn) : RoundOutcome × Session t.σ :=
  ({ processor := p, reports := t.reports, filing := t.filing } : Session t.σ).round t.write t.index

/-- The processor after several rounds. -/
def afterTurns (p : Processor) : List Turn → Processor
  | [] => p
  | t :: rest => (p.turn t).2.processor.afterTurns rest

/-- The registry after a round is the one that contributions were bound through. -/
theorem registry_turn (p : Processor) (t : Turn) :
    (p.turn t).2.processor.registry = p.nextRegistry t.index := rfl

/-- A round changes no configuration. -/
@[simp]
theorem config_turn (p : Processor) (t : Turn) : (p.turn t).2.processor.config = p.config := rfl

/-- No run does. -/
@[simp]
theorem config_afterTurns (p : Processor) (turns : List Turn) :
    (p.afterTurns turns).config = p.config := by
  induction turns generalizing p with
  | nil => rfl
  | cons t rest ih => rw [afterTurns, ih, config_turn]

/-- A run can be done in two parts. -/
theorem afterTurns_append (p : Processor) (first rest : List Turn) :
    p.afterTurns (first ++ rest) = (p.afterTurns first).afterTurns rest := by
  induction first generalizing p with
  | nil => rfl
  | cons t first ih => exact ih (p.turn t).2.processor

/-- What a round resolves and reports depends on the registry that contributions are bound through,
and on nothing else that a processor keeps. -/
theorem plan_congr {p q : Processor} {index : DeclarationIndex} (hconfig : p.config = q.config)
    (hregistry : p.nextRegistry index = q.nextRegistry index) :
    (p.plan index).contributions = (q.plan index).contributions ∧
      (p.plan index).dropped = (q.plan index).dropped ∧
      (p.plan index).diagnostics = (q.plan index).diagnostics := by
  rw [plan_eq, plan_eq, hconfig, hregistry]
  exact ⟨rfl, rfl, rfl⟩

section Rebuild

variable {p q : Processor} (hmode : p.config.registryMode = .rebuild)
include hmode

/-- After a round, a processor that rebuilds its registry has the keys of the index alone. -/
theorem keys_turn_of_rebuild (t : Turn) :
    (p.turn t).2.processor.registry.keys =
      (KeyCollection.collected p.config t.index).eraseDups := by
  rw [registry_turn, nextRegistry_of_rebuild hmode, KeyCollection.into_eq,
    KeyRegistry.keys_extend_empty]

/-- Two such processors bind contributions through the same registry. -/
theorem nextRegistry_eq_of_rebuild (hconfig : p.config = q.config) (index : DeclarationIndex) :
    p.nextRegistry index = q.nextRegistry index := by
  rw [nextRegistry_of_rebuild hmode, nextRegistry_of_rebuild (hconfig ▸ hmode), hconfig]

end Rebuild

section Merge

variable {p : Processor} (hmode : p.config.registryMode = .merge)
include hmode

/-- After a run, a processor that merges registries has the keys that it had before and those of all
indexes of the run. -/
theorem registry_afterTurns_of_merge (turns : List Turn) :
    (p.afterTurns turns).registry =
      p.registry.extend (turns.flatMap (KeyCollection.collected p.config ·.index)) := by
  -- Each round leaves another processor behind, so that the statement is for all of them.
  induction turns generalizing p with
  | nil => rfl
  | cons t rest ih =>
    have hrest : ((p.turn t).2.processor.afterTurns rest).registry =
        (p.nextRegistry t.index).extend
          (rest.flatMap (KeyCollection.collected p.config ·.index)) :=
      ih (p := (p.turn t).2.processor) hmode
    rw [afterTurns, hrest, nextRegistry_of_merge hmode, KeyCollection.into_eq,
      List.flatMap_cons, KeyRegistry.extend_append]

/-- After further rounds, it has its keys still, in their order and before all others. -/
theorem keys_prefix_afterTurns (earlier later : List Turn) :
    (p.afterTurns earlier).registry.keys <+: (p.afterTurns (earlier ++ later)).registry.keys := by
  rw [registry_afterTurns_of_merge hmode, registry_afterTurns_of_merge hmode, List.flatMap_append,
    KeyRegistry.extend_append]
  exact KeyRegistry.keys_prefix_extend _ _

end Merge

/-- A new processor that merges registries has the first of equal keys of all indexes of a run. -/
theorem keys_afterTurns_of_merge {config : Config} (hmode : config.registryMode = .merge)
    (turns : List Turn) :
    ((ofConfig config).afterTurns turns).registry.keys =
      (turns.flatMap (KeyCollection.collected config ·.index)).eraseDups := by
  have hregistry := registry_afterTurns_of_merge (p := ofConfig config) hmode turns
  rw [hregistry]
  exact KeyRegistry.keys_extend_empty _

end Processor

/-- What the registry of a new processor holds after any round of a run, in which each round has a
filer and earlier reports of its own. If the processor rebuilds its registry, it holds the first of
equal keys that the index of the round declares. So it is that of a new processor after its first
round over the index, the same contributions are resolved and as many dropped, and the same reports
are made. If the processor merges registries, it holds the first of equal keys that the indexes of
all rounds so far declare, in the order of the rounds, and begins with the registry before the
round. The outcome counts the keys, and a registry grows by as many keys as are added behind its
own. -/
theorem registry_after_turn (config : Config) (turns : List Turn) (t : Turn) :
    let p := (Processor.ofConfig config).afterTurns turns
    let outcome := (p.turn t).1
    let next := (p.turn t).2
    (match config.registryMode with
      | .rebuild =>
        next.processor.registry.keys = (KeyCollection.collected config t.index).eraseDups ∧
        ∀ (τ : Type) (write : Filer (StateM τ)) (filing : τ) (reports : List Diagnostic),
          let fresh := Processor.ofConfig config
          let first := fresh.turn { index := t.index, reports, write, filing }
          next.processor.registry = first.2.processor.registry ∧
          (p.plan t.index).contributions = (fresh.plan t.index).contributions ∧
          outcome.dropped = first.1.dropped ∧
          ∃ made, next.reports = t.reports ++ made ∧ first.2.reports = reports ++ made
      | .merge =>
        next.processor.registry.keys =
          ((turns ++ [t]).flatMap (KeyCollection.collected config ·.index)).eraseDups ∧
        p.registry.keys <+: next.processor.registry.keys) ∧
    outcome.keys = next.processor.registry.keys.length ∧
    ∀ registry, ∃ new,
      (KeyCollection.into config t.index registry).keys = registry.keys ++ new ∧
      registry.size ≤ (KeyCollection.into config t.index registry).size ∧
      KeyCollection.added config t.index registry = new.length := by
  intro p outcome next
  have hconfig : p.config = config := Processor.config_afterTurns (.ofConfig config) turns
  refine ⟨?_, rfl, KeyCollection.exists_keys_into_eq_append config t.index⟩
  cases hmode : config.registryMode with
  | rebuild =>
    -- The keys of earlier rounds are dropped first, so that the index decides alone.
    have hrebuild : p.config.registryMode = .rebuild := hconfig ▸ hmode
    have hregistry : p.nextRegistry t.index = (Processor.ofConfig config).nextRegistry t.index :=
      Processor.nextRegistry_eq_of_rebuild hrebuild hconfig t.index
    obtain ⟨hcontributions, hdropped, hreports⟩ := Processor.plan_congr hconfig hregistry
    refine ⟨hconfig ▸ Processor.keys_turn_of_rebuild hrebuild t, ?_⟩
    intro τ write filing reports fresh first
    refine ⟨hregistry, hcontributions, hdropped, (p.plan t.index).diagnostics, rfl, ?_⟩
    exact congrArg (reports ++ ·) hreports.symm
  | merge =>
    -- The round is the last one of a run that is longer by one.
    have hnext : next.processor = (Processor.ofConfig config).afterTurns (turns ++ [t]) :=
      (Processor.afterTurns_append (.ofConfig config) turns [t]).symm
    rw [hnext]
    exact ⟨Processor.keys_afterTurns_of_merge hmode (turns ++ [t]),
      Processor.keys_prefix_afterTurns (p := .ofConfig config) hmode turns [t]⟩

/-- In a processor that merges registries, what is resolved for an element after some rounds is
resolved for it after any further rounds, over whatever indexes. It is bound through the same key,
so that its module stays the same. -/
theorem resolve?_of_afterTurns {p : Processor} (hmode : p.config.registryMode = .merge)
    (earlier later : List Turn) (index : DeclarationIndex) (element : Element) {c : Contribution}
    (h : Contribution.resolve? p.config index (p.afterTurns earlier).registry element = some c) :
    let before := (p.afterTurns earlier).registry
    let after := (p.afterTurns (earlier ++ later)).registry
    Contribution.resolve? p.config index after element = some c ∧
      ∃ owner name m key, element = .method owner name ∧ index.method? owner name = some m ∧
        Contribution.matchingKey? index before m.returnType = some key ∧
        Contribution.matchingKey? index after m.returnType = some key ∧
        c.base = some key.base ∧ c.valueType = some key.valueType ∧
        c.useStringKeys = key.useStringKeys := by
  intro before after
  have hkeys : before.keys <+: after.keys := p.keys_prefix_afterTurns hmode earlier later
  cases element with
  | type name => cases h
  | method owner name =>
    obtain ⟨m, key, target, hm, hkey, hmodule, htarget, rfl⟩ :=
      Contribution.ofMethod_eq_ok_iff.mp (Contribution.resolve?_method_eq_some_iff.mp h)
    -- The module and the class that is bound do not depend on the registry, and no key that came
    -- later stands before the one that matched.
    have hafter : Contribution.matchingKey? index after m.returnType = some key :=
      KeyRegistry.firstMatch?_of_prefix hkeys hkey
    refine ⟨?_, owner, name, m, key, rfl, hm, hkey, hafter, rfl, rfl, rfl⟩
    rw [Contribution.resolve?_method_eq_some_iff]
    exact Contribution.ofMethod_eq_ok_iff.mpr ⟨m, key, target, hm, hafter, hmodule, htarget, rfl⟩

/-- The sample application with another key, which is for the widgets themselves. -/
def widgetKeyIndex : DeclarationIndex :=
  let widget : ClassName := ⟨"com.app", "Widget", []⟩
  let markers : MarkerNames := {}
  ((sampleIndex []).put {
    name := widget
    kind := .annotationType
    annotations := [⟨markers.mapKey, []⟩]
    supertypes := []
    methods := [⟨"value", .declared .string, []⟩] }).put {
    name := ⟨"com.app", "InjectorKeys", []⟩
    kind := .plain
    annotations := [⟨markers.injectorKeyRegistry, [(keysArgument, .typeList [.declared widget])]⟩]
    supertypes := []
    methods := [] }

/-- The method of the sample application is bound through the key for the base class of the widgets.
It is so after a round that brings in the key for the widgets themselves, through which it is bound
if the rounds come the other way round. -/
theorem resolve?_of_afterTurns_sample :
    let config : Config := { registryMode := .merge }
    let index := sampleIndex ["bindWidget"]
    let method : Element := .method ⟨"com.app", "FeatureModule", []⟩ "bindWidget"
    let first : Turn := ⟨index, [], MemoryFiler.write, .empty⟩
    let second : Turn := ⟨widgetKeyIndex, [], MemoryFiler.write, .empty⟩
    let base? := fun turns : List Turn =>
      (Contribution.resolve? config index ((Processor.ofConfig config).afterTurns turns).registry
        method).bind (·.base)
    base? [first, second] = some ⟨"com.app", "Injectable", []⟩ ∧
      base? [second, first] = some ⟨"com.app", "Widget", []⟩ := by
  intro config index method first second base?
  have hfirst : base? [first] = some ⟨"com.app", "Injectable", []⟩ := by decide +kernel
  obtain ⟨c, hc, hbase⟩ := Option.bind_eq_some_iff.mp hfirst
  have hafter : Contribution.resolve? config index
      ((Processor.ofConfig config).afterTurns [first, second]).registry method = some c :=
    (resolve?_of_afterTurns (p := .ofConfig config) rfl [first] [second] index method hc).1
  refine ⟨?_, by decide +kernel⟩
  show (Contribution.resolve? config index
    ((Processor.ofConfig config).afterTurns [first, second]).registry method).bind (·.base) = _
  rw [hafter, Option.bind_some, hbase]

end Multibinding
