import Mathlib.Data.List.Nodup

/-!
# Lists of items with keys

When the look-up of a key finds an item.

* `find?_key_eq_some_iff`: in a list without repeated keys;
* `find?_eq_some_of_pairwise`, `pairwise_key_ne_iff`: in a list where keys are repeated, but no item
  of a kind stands behind another item of its key.
-/

namespace Multibinding

variable {α κ : Type} [DecidableEq κ] {key : α → κ}

/-- In a list without repeated keys, the look-up of a key finds an item exactly if the item is in
the list and has the key. -/
theorem find?_key_eq_some_iff {items : List α} (hnodup : (items.map key).Nodup) {k : κ} {a : α} :
    items.find? (key · == k) = some a ↔ a ∈ items ∧ key a = k := by
  induction items with
  | nil => simp
  | cons b rest ih =>
    obtain ⟨hb, hrest⟩ := List.nodup_cons.mp hnodup
    rw [List.find?_cons]
    by_cases hk : key b = k
    · -- No later item has the key, as it would be repeated.
      have hlater : ¬(a ∈ rest ∧ key a = k) := fun ⟨hmem, ha⟩ =>
        hb (hk.trans ha.symm ▸ List.mem_map_of_mem hmem)
      rw [beq_iff_eq.mpr hk]
      constructor
      · rintro ⟨rfl⟩
        exact ⟨List.mem_cons_self, hk⟩
      · rintro ⟨hmem, ha⟩
        rcases List.mem_cons.mp hmem with rfl | hmem
        · rfl
        · exact absurd ⟨hmem, ha⟩ hlater
    · rw [beq_eq_false_iff_ne.mpr hk, ih hrest, List.mem_cons]
      constructor
      · exact fun ⟨hmem, ha⟩ => ⟨Or.inr hmem, ha⟩
      · rintro ⟨rfl | hmem, ha⟩
        · exact absurd ha hk
        · exact ⟨hmem, ha⟩

variable {p : α → Bool}

/-- If no item of a kind stands behind an item of its key, each item of the kind is found under its
key. -/
theorem find?_eq_some_of_pairwise {items : List α}
    (h : items.Pairwise fun a b => p b → key a ≠ key b) {b : α} (hb : b ∈ items) (hp : p b) :
    items.find? (key · == key b) = some b := by
  induction items with
  | nil => cases hb
  | cons a rest ih =>
    obtain ⟨ha, hrest⟩ := List.pairwise_cons.mp h
    rcases List.mem_cons.mp hb with rfl | hb
    · exact List.find?_cons_of_pos (beq_self_eq_true _)
    · rw [List.find?_cons_of_neg (by simpa using ha b hb hp), ih hrest hb]

/-- No item of a kind stands behind an item of its key exactly if the items of the kind differ by
their keys, and the look-up of each of these keys finds an item of the kind. -/
theorem pairwise_key_ne_iff {items : List α} :
    items.Pairwise (fun a b => p b → key a ≠ key b) ↔
      (∀ b ∈ items, p b → ∃ a, items.find? (key · == key b) = some a ∧ p a) ∧
        ((items.filter p).map key).Nodup := by
  constructor
  · intro h
    refine ⟨fun b hb hp => ⟨b, find?_eq_some_of_pairwise h hb hp, hp⟩, ?_⟩
    refine List.pairwise_map.mpr (List.pairwise_filter.mpr ?_)
    exact h.imp fun hne _ hp => hne hp
  · rintro ⟨hfind, hnodup⟩
    induction items with
    | nil => exact List.Pairwise.nil
    | cons a rest ih =>
      have ha : ∀ b ∈ rest, p b → key a ≠ key b := by
        intro b hb hp heq
        -- The look-up finds the first item, which therefore is of the kind and repeats the key.
        obtain ⟨c, hc, hpc⟩ := hfind b (List.mem_cons_of_mem a hb) hp
        rw [List.find?_cons_of_pos (by simpa using heq)] at hc
        obtain rfl := Option.some.inj hc
        rw [List.filter_cons_of_pos hpc, List.map_cons, List.nodup_cons] at hnodup
        exact hnodup.1 (heq ▸ List.mem_map_of_mem (List.mem_filter.mpr ⟨hb, hp⟩))
      refine List.pairwise_cons.mpr ⟨ha, ih ?_ ?_⟩
      · intro b hb hp
        obtain ⟨c, hc, hpc⟩ := hfind b (List.mem_cons_of_mem a hb) hp
        rw [List.find?_cons_of_neg (by simpa using ha b hb hp)] at hc
        exact ⟨c, hc, hpc⟩
      · exact hnodup.sublist (((List.sublist_cons_self a rest).filter p).map key)

end Multibinding
