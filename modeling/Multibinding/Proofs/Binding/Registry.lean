import Multibinding.Proofs.Binding.Description

/-!
# What a registry holds

A registry keeps the first of equal keys and the order of the keys, and keys are only added behind
those that it has. What was the first match for a predicate stays the first match.

* `keys_extend`, `keys_extend_empty`: which keys are held;
* `keys_prefix_extend`: no key is lost or moved;
* `firstMatch?_of_prefix`: a match stays the first one;
* `KeyCollection.exists_keys_into_eq_append`: how many keys an index adds.
-/

namespace Multibinding

namespace KeyRegistry

/-- Inserting a key is inserting an item that is new. -/
theorem keys_insert (registry : KeyRegistry) (key : InjectorKey) :
    (registry.insert key).keys = insertNew (· == ·) registry.keys key := by
  rw [insert, contains, insertNew, List.any_beq]
  split <;> rfl

/-- Inserting several keys is inserting them one after another, if they are new. -/
theorem keys_extend (registry : KeyRegistry) (keys : List InjectorKey) :
    (registry.extend keys).keys = keys.foldl (insertNew (· == ·)) registry.keys := by
  induction keys generalizing registry with
  | nil => rfl
  | cons key rest ih =>
    rw [List.foldl_cons, ← keys_insert]
    exact ih (registry.insert key)

/-- A registry without other keys holds the first of equal keys. -/
theorem keys_extend_empty (keys : List InjectorKey) :
    (empty.extend keys).keys = keys.eraseDups := by
  rw [keys_extend]
  exact foldl_insertNew_nil (· == ·) keys

/-- Keys can be inserted in two parts. -/
theorem extend_append (registry : KeyRegistry) (first rest : List InjectorKey) :
    registry.extend (first ++ rest) = (registry.extend first).extend rest :=
  List.foldl_append

/-- Keys are added behind those that a registry has. -/
theorem keys_prefix_extend (registry : KeyRegistry) (keys : List InjectorKey) :
    registry.keys <+: (registry.extend keys).keys := by
  induction keys generalizing registry with
  | nil => exact List.prefix_rfl
  | cons key rest ih =>
    -- One key is either there already or added at the end.
    have hkey : registry.keys <+: (registry.insert key).keys := by
      rw [keys_insert, insertNew]
      split
      · exact List.prefix_rfl
      · exact List.prefix_append registry.keys [key]
    exact hkey.trans (ih (registry.insert key))

/-- What is the first match is so too in a registry that has further keys behind. -/
theorem firstMatch?_of_prefix {registry other : KeyRegistry} (h : registry.keys <+: other.keys)
    {p : InjectorKey → Bool} {key : InjectorKey} (hkey : registry.firstMatch? p = some key) :
    other.firstMatch? p = some key :=
  h.find?_eq_some hkey

end KeyRegistry

namespace KeyCollection

/-- The keys that an index declares, in their order. -/
def collected (config : Config) (index : DeclarationIndex) : List InjectorKey :=
  keys config index (registries config index)

variable (config : Config) (index : DeclarationIndex) (registry : KeyRegistry)

/-- The keys that an index declares are inserted into a registry. -/
theorem into_eq : into config index registry = registry.extend (collected config index) := rfl

/-- With the keys of an index, a registry grows by as many keys as were added behind its own. -/
theorem exists_keys_into_eq_append :
    ∃ new, (into config index registry).keys = registry.keys ++ new ∧
      registry.size ≤ (into config index registry).size ∧
      added config index registry = new.length := by
  obtain ⟨new, hnew⟩ := registry.keys_prefix_extend (collected config index)
  have hsize : (into config index registry).size = registry.size + new.length := by
    rw [KeyRegistry.size, KeyRegistry.size, into_eq, ← hnew, List.length_append]
  refine ⟨new, by rw [into_eq, hnew], hsize ▸ Nat.le_add_right _ _, ?_⟩
  rw [added, hsize, Nat.add_sub_cancel_left]

end KeyCollection

end Multibinding
