import Multibinding.Proofs.Entries
import Multibinding.Proofs.Json.Plain

/-!
# Sorted JSON values

Sorting the members of all objects in a value keeps the value plain and makes it no higher, and
sorting once is enough.

* `Value.canonical_canonical`: a sorted value is kept;
* `Value.isPlain_canonical`, `Value.height_canonical_le`: what sorting keeps;
* `Value.filter_canonical`: in an object that repeats no key, the members of a key.
-/

namespace Multibinding.Json.Value

theorem canonicalMembers_eq_map (members : List (String × Value)) :
    canonicalMembers members = members.map fun m => (m.1, m.2.canonical) := by
  induction members with
  | nil => rfl
  | cons m rest ih => rw [canonicalMembers, ih, List.map_cons]

/-- The keys are kept. -/
theorem map_key_canonicalMembers (members : List (String × Value)) :
    (canonicalMembers members).map (·.1) = members.map (·.1) := by
  rw [canonicalMembers_eq_map, List.map_map]
  rfl

/-- Members with sorted values are kept. -/
theorem canonicalMembers_eq_self {members : List (String × Value)}
    (h : ∀ m ∈ members, m.2.canonical = m.2) : canonicalMembers members = members := by
  rw [canonicalMembers_eq_map]
  refine (List.map_congr_left fun m hm => ?_).trans (List.map_id members)
  rw [h m hm]
  rfl

mutual

/-- A sorted value is kept. -/
theorem canonical_canonical : (v : Value) → v.canonical.canonical = v.canonical
  | .null => rfl
  | .bool _ => rfl
  | .number _ => rfl
  | .string _ => rfl
  | .array items => by
    rw [canonical, canonical, canonicalItems_canonicalItems items]
  | .object members => by
    have hmembers : ∀ m ∈ Entries.ofList (canonicalMembers members), m.2.canonical = m.2 :=
      fun m hm => canonical_of_mem_canonicalMembers members m (Entries.mem_of_mem_ofList hm)
    rw [canonical, canonical, canonicalMembers_eq_self hmembers,
      Entries.ofList_eq_self (Entries.sorted_ofList _)]

/-- Sorted items are kept. -/
theorem canonicalItems_canonicalItems : (items : List Value) →
    canonicalItems (canonicalItems items) = canonicalItems items
  | [] => rfl
  | v :: rest => by
    rw [canonicalItems, canonicalItems, canonical_canonical v, canonicalItems_canonicalItems rest]

/-- The values of members that have been sorted are kept. -/
theorem canonical_of_mem_canonicalMembers : (members : List (String × Value)) →
    ∀ m ∈ canonicalMembers members, m.2.canonical = m.2
  | [], m, hm => nomatch hm
  | (key, v) :: rest, m, hm => by
    rcases List.mem_cons.mp hm with rfl | hm
    · exact canonical_canonical v
    · exact canonical_of_mem_canonicalMembers rest m hm

end

mutual

/-- A plain value stays plain. -/
theorem isPlain_canonical : (v : Value) → v.isPlain → v.canonical.isPlain
  | .null, _ => rfl
  | .bool _, _ => rfl
  | .number _, h => h
  | .string _, _ => rfl
  | .array items, h => isPlain_canonicalItems items h
  | .object members, h => by
    obtain ⟨_, hmembers⟩ := (Bool.and_eq_true _ _).mp h
    have hplain := isPlainMembers_iff.mp (isPlain_canonicalMembers members hmembers)
    have hsorted := Entries.sorted_ofList (canonicalMembers members)
    exact (Bool.and_eq_true _ _).mpr ⟨decide_eq_true hsorted.nodup,
      isPlainMembers_iff.mpr fun m hm => hplain m (Entries.mem_of_mem_ofList hm)⟩

/-- Plain items stay plain. -/
theorem isPlain_canonicalItems : (items : List Value) → isPlainItems items →
    isPlainItems (canonicalItems items)
  | [], _ => rfl
  | v :: rest, h => by
    obtain ⟨hv, hrest⟩ := (Bool.and_eq_true _ _).mp h
    exact (Bool.and_eq_true _ _).mpr ⟨isPlain_canonical v hv, isPlain_canonicalItems rest hrest⟩

/-- Plain members stay plain. -/
theorem isPlain_canonicalMembers : (members : List (String × Value)) →
    isPlainMembers members → isPlainMembers (canonicalMembers members)
  | [], _ => rfl
  | (_, v) :: rest, h => by
    obtain ⟨hv, hrest⟩ := (Bool.and_eq_true _ _).mp h
    exact (Bool.and_eq_true _ _).mpr ⟨isPlain_canonical v hv, isPlain_canonicalMembers rest hrest⟩

end

mutual

/-- No value becomes higher. -/
theorem height_canonical_le : (v : Value) → v.canonical.height ≤ v.height
  | .null => Nat.le_refl _
  | .bool _ => Nat.le_refl _
  | .number _ => Nat.le_refl _
  | .string _ => Nat.le_refl _
  | .array items => Nat.succ_le_succ (heightItems_canonicalItems_le items)
  | .object members => by
    have hmembers := heightMembers_le_iff.mp (heightMembers_canonicalMembers_le members)
    refine Nat.succ_le_succ (heightMembers_le_iff.mpr fun m hm => ?_)
    exact hmembers m (Entries.mem_of_mem_ofList hm)

/-- No item becomes higher. -/
theorem heightItems_canonicalItems_le : (items : List Value) →
    heightItems (canonicalItems items) ≤ heightItems items
  | [] => Nat.le_refl _
  | v :: rest => by
    have hv := height_canonical_le v
    have hrest := heightItems_canonicalItems_le rest
    rw [canonicalItems, heightItems, heightItems]
    omega

/-- No member becomes higher. -/
theorem heightMembers_canonicalMembers_le : (members : List (String × Value)) →
    heightMembers (canonicalMembers members) ≤ heightMembers members
  | [] => Nat.le_refl _
  | (_, v) :: rest => by
    have hv := height_canonical_le v
    have hrest := heightMembers_canonicalMembers_le rest
    rw [canonicalMembers, heightMembers, heightMembers]
    omega

end

/-- In an object that repeats no key, the member of a key keeps its place among the members of the
key. -/
theorem filter_canonical {members : List (String × Value)} (h : (members.map (·.1)).Nodup)
    (key : String) :
    (Entries.ofList (canonicalMembers members)).filter (·.1 == key) =
      canonicalMembers (members.filter (·.1 == key)) := by
  rw [Entries.filter_ofList (by rwa [map_key_canonicalMembers]), canonicalMembers_eq_map,
    canonicalMembers_eq_map, List.filter_map]
  rfl

end Multibinding.Json.Value
