import Mathlib.Data.List.Pairwise
import Multibinding.Declaration.Json
import Multibinding.Proofs.Binding.Description
import Multibinding.Proofs.Binding.Members
import Multibinding.Proofs.Declaration.Digest

/-!
# Scopes of a subcomponent

Scopes are added to a contribution one after another, each unless it is there already, and a
subcomponent carries those that were kept. A scope is looked for by its digest, so that of equal
scopes only those are left out whose zeros have the same signs as those of one that is kept.

* `pairwise_foldl_insertNew`, `exists_mem_foldl_insertNew`: what is kept of items that are added;
* `Contribution.scopes_distinct_iff`: when no two of the scopes that are kept are equal.
-/

namespace Multibinding

section Kept

variable {α : Type} {same : α → α → Bool}

/-- What is kept was there before or is one of the items. -/
theorem mem_or_mem_of_mem_foldl_insertNew {items kept : List α} {a : α}
    (h : a ∈ items.foldl (insertNew same) kept) : a ∈ kept ∨ a ∈ items := by
  induction items generalizing kept with
  | nil => exact Or.inl h
  | cons b rest ih =>
    rcases ih h with hkept | hrest
    · rw [insertNew] at hkept
      split at hkept
      · exact Or.inl hkept
      · rcases List.mem_append.mp hkept with hkept | hb
        · exact Or.inl hkept
        · exact Or.inr (List.mem_singleton.mp hb ▸ List.mem_cons_self)
    · exact Or.inr (List.mem_cons_of_mem b hrest)

/-- What was kept stays. -/
theorem subset_foldl_insertNew (items kept : List α) :
    kept ⊆ items.foldl (insertNew same) kept := by
  induction items generalizing kept with
  | nil => exact List.Subset.refl kept
  | cons b rest ih =>
    refine List.Subset.trans ?_ (ih (insertNew same kept b))
    rw [insertNew]
    split
    · exact List.Subset.refl kept
    · exact List.subset_append_left kept [b]

/-- No item is kept that is the same as one before it. -/
theorem pairwise_foldl_insertNew {items kept : List α}
    (h : kept.Pairwise fun a b => same b a = false) :
    (items.foldl (insertNew same) kept).Pairwise fun a b => same b a = false := by
  -- The induction is on the items that are left, whatever is kept of those before.
  induction items generalizing kept with
  | nil => exact h
  | cons b rest ih =>
    apply ih
    rw [insertNew]
    split
    next => exact h
    next hnew =>
      refine List.pairwise_append.mpr ⟨h, List.pairwise_singleton .., ?_⟩
      intro a ha b' hb'
      rw [List.mem_singleton.mp hb']
      simp only [List.any_eq_true, not_exists, not_and, Bool.not_eq_true] at hnew
      exact hnew a ha

/-- Of each item, one that is the same is kept. -/
theorem exists_mem_foldl_insertNew (hrefl : ∀ a, same a a = true) {items : List α} {a : α}
    (h : a ∈ items) (kept : List α) : ∃ b ∈ items.foldl (insertNew same) kept, same a b = true := by
  induction items generalizing kept with
  | nil => cases h
  | cons b rest ih =>
    rcases List.mem_cons.mp h with rfl | hrest
    · have hkept : ∃ b ∈ insertNew same kept a, same a b = true := by
        rw [insertNew]
        split
        next hany => exact List.any_eq_true.mp hany
        next => exact ⟨a, List.mem_append_right _ (List.mem_singleton_self a), hrefl a⟩
      obtain ⟨b, hb, hsame⟩ := hkept
      exact ⟨b, subset_foldl_insertNew rest _ hb, hsame⟩
    · exact ih hrest _

end Kept

namespace Contribution

/-- Scopes that are added to a contribution which has none. Equal arguments have one digest exactly
if their zeros have the same signs. Of each scope, one is kept that is equal to it and has its
signs, and the subcomponent carries the scopes that are kept, in their order. No two of these are
equal exactly if among the scopes that were added equal ones have zeros of the same signs. -/
theorem scopes_distinct_iff (framework : FrameworkNames) (c : Contribution)
    (added : List Annotation) :
    let d := added.foldl addScope { c with scopes := [] }
    (∀ v w : AnnotationValue, v.eqv w = true →
      (v.digest = w.digest ↔ v.zeroSigns = w.zeroSigns)) ∧
    (∀ a ∈ added, ∃ b ∈ d.scopes, a.eqv b = true ∧ a.zeroSigns = b.zeroSigns) ∧
    (∃ own, (d.subcomponentDecl framework).annotations =
      own :: d.scopes.map Java.AnnotationUse.ofAnnotation) ∧
    (d.scopes.Pairwise (fun a b => ¬a.eqv b) ↔
      ∀ a ∈ added, ∀ b ∈ added, a.eqv b = true → a.zeroSigns = b.zeroSigns) := by
  intro d
  have heqv (a b : Annotation) : a.eqv b = true ↔ a.unsigned = b.unsigned :=
    Annotation.eqv_iff_unsigned_eq
  simp only [heqv]
  have hscopes : d.scopes = added.foldl (insertNew Annotation.sameElement) [] :=
    congrArg Contribution.scopes (foldl_addScope added { c with scopes := [] })
  have hkept : ∀ a ∈ added, ∃ b ∈ d.scopes,
      a.unsigned = b.unsigned ∧ a.zeroSigns = b.zeroSigns := by
    intro a ha
    rw [hscopes]
    obtain ⟨b, hb, hsame⟩ := exists_mem_foldl_insertNew
      (fun a => Annotation.sameElement_iff.mpr ⟨rfl, rfl⟩) ha []
    exact ⟨b, hb, Annotation.sameElement_iff.mp hsame⟩
  refine ⟨fun v w => AnnotationValue.digest_eq_iff, hkept,
    ⟨_, d.annotations_subcomponentDecl framework⟩, ?_⟩
  constructor
  · intro hdistinct a ha b hb heq
    obtain ⟨a', ha', heqa, hsignsa⟩ := hkept a ha
    obtain ⟨b', hb', heqb, hsignsb⟩ := hkept b hb
    -- What is kept of the two is equal, and so it is one scope.
    have hone : a' = b' := by
      by_contra hne
      have : Std.Symm fun a b : Annotation => ¬a.unsigned = b.unsigned := ⟨fun _ _ => Ne.symm⟩
      exact hdistinct.forall ha' hb' hne (heqa.symm.trans (heq.trans heqb))
    rw [hsignsa, hsignsb, hone]
  · intro hsigns
    have hapart : d.scopes.Pairwise fun a b => b.sameElement a = false := by
      rw [hscopes]
      exact pairwise_foldl_insertNew List.Pairwise.nil
    refine hapart.imp_of_mem ?_
    intro a b ha hb hne heq
    have hadded : ∀ a ∈ d.scopes, a ∈ added := by
      intro a ha
      rw [hscopes] at ha
      exact (mem_or_mem_of_mem_foldl_insertNew ha).resolve_left List.not_mem_nil
    have hsame : b.sameElement a = true :=
      Annotation.sameElement_iff.mpr ⟨heq.symm, (hsigns a (hadded a ha) b (hadded b hb) heq).symm⟩
    rw [hsame] at hne
    cases hne

/-- The text of a scope with a number as its argument. -/
def scopeText (number : String) : String :=
  "\x7b\"type\": \"com.app.ActivityScope\", \"values\": \x7b\"v\": " ++ number ++ "\x7d\x7d"

/-- Zero and minus zero are equal and have different digests. Scopes that are read with them in the
same argument are equal, and both are kept. -/
theorem equal_scopes_kept_sample :
    let c : Contribution :=
      { container := ⟨"com.app", "FeatureModule", []⟩
        method := "bindWidget"
        target := ⟨"com.app", "Widget", []⟩
        base := none
        valueType := none }
    let zero (negative : Bool) : AnnotationValue := .other (.number (.float (.zero negative)))
    (zero false).eqv (zero true) = true ∧ (zero false).digest ≠ (zero true).digest ∧
      ∃ a b, Annotation.ofJsonText (scopeText "0.0") = .ok a ∧
        Annotation.ofJsonText (scopeText "-0.0") = .ok b ∧
        a.eqv b = true ∧ ([a, b].foldl addScope c).scopes.length = 2 := by
  intro c zero
  refine ⟨by decide +kernel, by decide +kernel, ?_⟩
  let read (number : String) := Annotation.ofJsonText (scopeText number)
  have hread : ((read "0.0").toOption.bind fun a => (read "-0.0").toOption.map fun b =>
        (a.eqv b, ([a, b].foldl addScope c).scopes.length)) = some (true, 2) := by
    decide +kernel
  obtain ⟨a, ha, hread⟩ := Option.bind_eq_some_iff.mp hread
  obtain ⟨b, hb, hread⟩ := Option.map_eq_some_iff.mp hread
  obtain ⟨heq, hlength⟩ := Prod.mk.inj hread
  exact ⟨a, b, toOption_eq_some_iff.mp ha, toOption_eq_some_iff.mp hb, heq, hlength⟩

end Contribution

end Multibinding
