import Multibinding.Proofs.Binding.KeyType
import Multibinding.Proofs.Round.Registry

/-!
# The pairs of a registry

A registry tells keys apart by all that they are made of, so that it could hold two keys for one
value type and one base class that are written differently. The registry of a processor never does:
how a key is written is decided by its value type, under the one configuration of the processor,
wherever a key is inserted.

* `KeyRegistry.StyledBy`: what a processor keeps of its registry, with `StyledBy.insert` for one key
  and `StyledBy.extend` for several;
* `Processor.styledBy_afterTurns`: so it is after any run;
* `registry_pairs_nodup`: no pair has two keys.
-/

namespace Multibinding

/-- A registry in which no key is held twice, and every key is written as a configuration wants it
for the value type of the key. -/
structure KeyRegistry.StyledBy (config : Config) (registry : KeyRegistry) : Prop where
  nodup : registry.keys.Nodup
  style : ∀ key ∈ registry.keys, key.useStringKeys = config.useStringKeys key.valueType

namespace KeyRegistry.StyledBy

variable {config : Config} {registry : KeyRegistry}

theorem empty (config : Config) : KeyRegistry.empty.StyledBy config :=
  ⟨List.nodup_nil, nofun⟩

/-- A key that is written as the configuration wants it can be inserted. -/
theorem insert (h : registry.StyledBy config) {key : InjectorKey}
    (hkey : key.useStringKeys = config.useStringKeys key.valueType) :
    (registry.insert key).StyledBy config := by
  rw [KeyRegistry.insert]
  split
  next => exact h
  next hnew =>
    have hnotMem : key ∉ registry.keys := by simpa [KeyRegistry.contains] using hnew
    refine ⟨?_, List.forall_mem_append.mpr ⟨h.style, List.forall_mem_singleton.mpr hkey⟩⟩
    exact List.nodup_append_comm.mp (List.nodup_cons.mpr ⟨hnotMem, h.nodup⟩)

/-- So can several such keys. -/
theorem extend (h : registry.StyledBy config) {keys : List InjectorKey}
    (hkeys : ∀ key ∈ keys, key.useStringKeys = config.useStringKeys key.valueType) :
    (registry.extend keys).StyledBy config := by
  induction keys generalizing registry with
  | nil => exact h
  | cons key rest ih =>
    obtain ⟨hkey, hrest⟩ := List.forall_mem_cons.mp hkeys
    exact ih (h.insert hkey) hrest

/-- In such a registry, a value type and a base class have one key at most. -/
theorem nodup_pairs (h : registry.StyledBy config) :
    (registry.keys.map fun key => (key.valueType, key.base)).Nodup := by
  refine (List.nodup_map_iff_inj_on h.nodup).mpr fun key hkey other hother hpair => ?_
  obtain ⟨hvalue, hbase⟩ := Prod.mk.inj hpair
  have hstyle : key.useStringKeys = other.useStringKeys := by
    rw [h.style key hkey, h.style other hother, hvalue]
  cases key
  cases other
  simp_all

end KeyRegistry.StyledBy

/-- The keys that an index declares are written as the configuration wants them. -/
theorem KeyCollection.style_of_mem_collected {config : Config} {index : DeclarationIndex}
    {key : InjectorKey} (h : key ∈ collected config index) :
    key.useStringKeys = config.useStringKeys key.valueType := by
  rw [collected, keys_eq] at h
  obtain ⟨type, -, hkey⟩ := List.mem_filterMap.mp h
  exact (InjectorKey.ofType_eq_ok_iff.mp (toOption_eq_some_iff.mp hkey)).style

namespace Processor

/-- A round binds contributions through such a registry, if the one before was such. -/
theorem styledBy_nextRegistry {p : Processor} (h : p.registry.StyledBy p.config)
    (index : DeclarationIndex) : (p.nextRegistry index).StyledBy p.config := by
  have hkeys : ∀ key ∈ KeyCollection.collected p.config index,
      key.useStringKeys = p.config.useStringKeys key.valueType :=
    fun _ => KeyCollection.style_of_mem_collected
  cases hmode : p.config.registryMode with
  | rebuild =>
    rw [nextRegistry_of_rebuild hmode, KeyCollection.into_eq]
    exact (KeyRegistry.StyledBy.empty p.config).extend hkeys
  | merge =>
    rw [nextRegistry_of_merge hmode, KeyCollection.into_eq]
    exact h.extend hkeys

/-- The registry stays such in a run. -/
theorem styledBy_afterTurns {p : Processor} (h : p.registry.StyledBy p.config)
    (turns : List Turn) : (p.afterTurns turns).registry.StyledBy p.config := by
  induction turns generalizing p with
  | nil => exact h
  | cons t rest ih => exact ih (p := (p.turn t).2.processor) (styledBy_nextRegistry h t.index)

end Processor

/-- After any run of a new processor, in which each round has an index, earlier reports and a filer
of its own, and whether or not the processor keeps the keys of earlier rounds: every key in the
registry is written as the configuration wants it for the value type of the key, and no two keys
have the same value type and the same base class. -/
theorem registry_pairs_nodup (config : Config) (turns : List Turn) :
    let registry := ((Processor.ofConfig config).afterTurns turns).registry
    (∀ key ∈ registry.keys, key.useStringKeys = config.useStringKeys key.valueType) ∧
      (registry.keys.map fun key => (key.valueType, key.base)).Nodup := by
  intro registry
  have h : registry.StyledBy config :=
    Processor.styledBy_afterTurns (p := .ofConfig config) (.empty config) turns
  exact ⟨h.style, h.nodup_pairs⟩

/-- A key that is declared in two rounds is registered once, also where registries are merged. -/
example :
    let config : Config := { registryMode := .merge }
    let turn : Turn := ⟨sampleIndex [], [], MemoryFiler.write, .empty⟩
    ((Processor.ofConfig config).afterTurns [turn, turn]).registry.keys =
      [⟨.declared .string, ⟨"com.app", "Injectable", []⟩, true⟩] := by
  decide +kernel

end Multibinding
