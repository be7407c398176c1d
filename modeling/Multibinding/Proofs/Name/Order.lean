import Mathlib.Data.List.Lex
import Mathlib.Data.List.Sort
import Mathlib.Data.Prod.Lex
import Mathlib.Data.String.Basic
import Multibinding.Name.ClassName

/-!
# The order of class names

Class names are ordered like the pairs of their packages and their chains of simple names, where
texts, chains and pairs are each compared from the left. This is a linear order, so that sorting
class names leaves nothing of the order that they had before.

* `le_iff`: the order is that of the pairs;
* `precedes_iff`: what comes first in it;
* `le_total`, `le_trans`, `le_antisymm`: it is linear;
* `mergeSort_eq_of_perm`: sorted names do not tell how they were ordered before;
* `eq_of_pairwise_precedes`: strictly ascending names are told by which names they are.
-/

namespace Multibinding.ClassName

/-- What class names are ordered by: the package, and then the simple names. -/
def orderKey (c : ClassName) : String ×ₗ List String :=
  toLex (c.package, c.simpleNames)

/-- Two class names with one package and the same simple names are equal. -/
theorem orderKey_injective : Function.Injective orderKey := by
  intro a b h
  obtain ⟨hpackage, hnames⟩ := Prod.mk.inj (toLex.injective h)
  obtain ⟨htop, hnested⟩ := List.cons.inj hnames
  cases a
  cases b
  cases hpackage
  cases htop
  cases hnested
  rfl

/-- A class name is before another one exactly if its pair is. -/
theorem lt_iff {a b : ClassName} : lt a b ↔ a.orderKey < b.orderKey := by
  have hnames : (a.simpleNames.lex b.simpleNames fun s t => s < t) = true ↔
      a.simpleNames < b.simpleNames := by
    rw [List.lex_eq_true_iff_lex]
    simp only [decide_eq_true_eq]
    exact (List.lt_iff_lex_lt a.simpleNames b.simpleNames).symm
  rw [lt, orderKey, orderKey, Prod.Lex.toLex_lt_toLex, Bool.or_eq_true, Bool.and_eq_true,
    decide_eq_true_eq, beq_iff_eq, hnames]

/-- A class name is no later than another one exactly if its pair is not. -/
theorem le_iff {a b : ClassName} : le a b ↔ a.orderKey ≤ b.orderKey := by
  rw [le, Bool.not_eq_true', ← Bool.not_eq_true, lt_iff, not_lt]

/-- A class name comes before another one if its package does or, in one package, its chain of
simple names does. Texts are compared by the code points of their characters. -/
def Precedes (a b : ClassName) : Prop :=
  a.package < b.package ∨ a.package = b.package ∧ a.simpleNames < b.simpleNames

/-- That is how the pairs are ordered. -/
theorem precedes_iff {a b : ClassName} : a.Precedes b ↔ a.orderKey < b.orderKey := by
  rw [Precedes, orderKey, orderKey, Prod.Lex.toLex_lt_toLex]

/-- Of two class names, one is no later than the other. -/
theorem le_total (a b : ClassName) : le a b || le b a := by
  rw [Bool.or_eq_true, le_iff, le_iff]
  exact total_of (· ≤ ·) _ _

theorem le_trans (a b c : ClassName) (hab : le a b) (hbc : le b c) : le a c :=
  le_iff.mpr ((le_iff.mp hab).trans (le_iff.mp hbc))

/-- Two class names that are both no later than the other are equal. -/
theorem le_antisymm (a b : ClassName) (hab : le a b) (hba : le b a) : a = b :=
  orderKey_injective (le_antisymm_iff.mpr ⟨le_iff.mp hab, le_iff.mp hba⟩)

/-- Of two class names that differ, the one that is no later comes first. -/
theorem precedes_of_le_of_ne {a b : ClassName} (hle : le a b) (hne : a ≠ b) : a.Precedes b := by
  apply precedes_iff.mpr
  exact lt_of_le_of_ne (le_iff.mp hle) (mt (@orderKey_injective a b) hne)

instance : Std.Irrefl Precedes where
  irrefl a h := lt_irrefl a.orderKey (precedes_iff.mp h)

instance : Std.Antisymm Precedes where
  antisymm _ _ hab hba := absurd (precedes_iff.mp hba) (lt_asymm (precedes_iff.mp hab))

/-- Class names that are strictly ascending are told by which names they are. -/
theorem eq_of_pairwise_precedes {names others : List ClassName} (hnames : names.Pairwise Precedes)
    (hothers : others.Pairwise Precedes) (h : ∀ name, name ∈ names ↔ name ∈ others) :
    names = others :=
  hnames.eq_of_mem_iff hothers h

/-- Sorted class names are in order. -/
theorem pairwise_mergeSort (names : List ClassName) :
    (names.mergeSort le).Pairwise fun a b => le a b :=
  List.pairwise_mergeSort le_trans le_total names

/-- Sorting the same names in whatever order gives one list. -/
theorem mergeSort_eq_of_perm {names others : List ClassName} (h : names.Perm others) :
    names.mergeSort le = others.mergeSort le := by
  refine List.Perm.eq_of_pairwise (fun a b _ _ => le_antisymm a b) (pairwise_mergeSort names)
    (pairwise_mergeSort others) ?_
  exact (names.mergeSort_perm le).trans (h.trans (others.mergeSort_perm le).symm)

end Multibinding.ClassName
