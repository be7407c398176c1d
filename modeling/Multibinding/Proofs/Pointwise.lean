import Mathlib.Data.List.Forall2

/-!
# Lists related item by item

What two lists have in common if each item of one is related to the item of the other in its place.

* `map_eq_map_of_forall₂`, `flatMap_eq_flatMap_of_forall₂`: what the items are mapped to;
* `filter_eq_filter_of_forall₂`: what is left of them;
* `find?_of_forall₂`: what is found.
-/

namespace Multibinding

section Related

variable {α β γ : Type} {R : α → β → Prop} {as : List α} {bs : List β}
  (h : List.Forall₂ R as bs)
include h

/-- If related items are mapped to the same, so are the lists. -/
theorem map_eq_map_of_forall₂ {f : α → γ} {g : β → γ} (hfg : ∀ a b, R a b → f a = g b) :
    as.map f = bs.map g := by
  induction h with
  | nil => rfl
  | @cons a b _ _ hab _ ih => rw [List.map_cons, List.map_cons, hfg a b hab, ih]

/-- If related items yield the same items, so do the lists. -/
theorem flatMap_eq_flatMap_of_forall₂ {f : α → List γ} {g : β → List γ}
    (hfg : ∀ a b, R a b → f a = g b) : as.flatMap f = bs.flatMap g := by
  rw [List.flatMap_def, List.flatMap_def, map_eq_map_of_forall₂ h hfg]

/-- If related items are sought alike, nothing is found in both lists or related items are. -/
theorem find?_of_forall₂ {p : α → Bool} {q : β → Bool} (hpq : ∀ a b, R a b → p a = q b) :
    (as.find? p = none ∧ bs.find? q = none) ∨
      ∃ a b, as.find? p = some a ∧ bs.find? q = some b ∧ R a b := by
  induction h with
  | nil => exact Or.inl ⟨rfl, rfl⟩
  | @cons a b _ _ hab _ ih =>
    rw [List.find?_cons, List.find?_cons, hpq a b hab]
    split
    · exact Or.inr ⟨a, b, rfl, rfl, hab⟩
    · exact ih

end Related

/-- If related items that are kept are equal, the same items are left of both lists. -/
theorem filter_eq_filter_of_forall₂ {α : Type} {R : α → α → Prop} {as bs : List α} {p q : α → Bool}
    (h : List.Forall₂ R as bs) (hpq : ∀ a b, R a b → p a = q b)
    (heq : ∀ a b, R a b → p a → a = b) : as.filter p = bs.filter q := by
  induction h with
  | nil => rfl
  | @cons a b _ _ hab _ ih =>
    rw [List.filter_cons, List.filter_cons, ← hpq a b hab, ih]
    split
    next hp => rw [heq a b hab hp]
    next => rfl

end Multibinding
