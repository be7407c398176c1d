import Multibinding.Proofs.Name.Dotted
import Multibinding.Proofs.Name.Generated

/-!
# When generated names are identifiers

The names of classes are identifiers, since they have been read, but the name of a method is any
text. So the name of a generated class is an identifier exactly if the characters of what is added
to the names of the container may stand in one.

* `isIdentifier_append`: when an identifier can be continued;
* `all_upperCamel`: a capital changes nothing about that;
* `ClassName.isIdentifier_generatedModule`, `ClassName.isIdentifier_contributionsModule`: the names
  of generated modules.
-/

namespace Multibinding

/-- An identifier can be continued with the characters that may stand in one. -/
theorem isIdentifier_append {s : String} (hs : isIdentifier s = true) (t : String) :
    isIdentifier (s ++ t) = t.toList.all isIdentifierPart := by
  rw [isIdentifier] at hs ⊢
  rw [String.toList_append]
  cases hlist : s.toList with
  | nil =>
    rw [hlist] at hs
    cases hs
  | cons c rest =>
    rw [hlist] at hs
    obtain ⟨hstart, hrest⟩ := (Bool.and_eq_true _ _).mp hs
    rw [List.cons_append]
    show (isIdentifierStart c && (rest ++ t.toList).all isIdentifierPart) = _
    rw [hstart, List.all_append, hrest, Bool.true_and, Bool.true_and]

/-- An underscore may stand in an identifier. -/
theorem all_underscore_append (s : String) :
    ("_" ++ s).toList.all isIdentifierPart = s.toList.all isIdentifierPart := by
  have hunderscore : "_".toList.all isIdentifierPart = true := by decide +kernel
  rw [String.toList_append, List.all_append, hunderscore, Bool.true_and]

/-- Identifiers that are joined with underscores are an identifier. -/
theorem isIdentifier_intercalate {names : List String} (hne : names ≠ [])
    (h : ∀ name ∈ names, isIdentifier name = true) :
    isIdentifier (String.intercalate "_" names) = true := by
  induction names with
  | nil => exact absurd rfl hne
  | cons name rest ih =>
    obtain ⟨hname, hrest⟩ := List.forall_mem_cons.mp h
    by_cases hnil : rest = []
    · rw [hnil, String.intercalate_singleton]
      exact hname
    · rw [String.intercalate_cons_of_ne_nil hnil, String.append_assoc, isIdentifier_append hname,
        all_underscore_append, List.all_eq_true]
      exact isIdentifierPart_of_mem (ih hnil hrest)

/-- A capital may stand where its letter may. -/
theorem isIdentifierPart_toUpper (c : Char) : isIdentifierPart c.toUpper = isIdentifierPart c := by
  by_cases h : 97 ≤ c.toNat ∧ c.toNat ≤ 122
  · -- Both are ASCII letters.
    have hall : (List.range 26).all (fun n =>
        isIdentifierPart (Char.ofNat (97 + n)) && isIdentifierPart (Char.ofNat (65 + n))) =
          true := by
      decide +kernel
    have hmem : c.toNat - 97 ∈ List.range 26 := List.mem_range.mpr (by omega)
    obtain ⟨hlower, hupper⟩ := (Bool.and_eq_true _ _).mp (List.all_eq_true.mp hall _ hmem)
    have hc : Char.ofNat (97 + (c.toNat - 97)) = c := by
      rw [Nat.add_sub_cancel' h.1, Char.ofNat_toNat]
    have hcapital : Char.ofNat (65 + (c.toNat - 97)) = c.toUpper := by
      have hnat : c.toUpper.toNat = 65 + (c.toNat - 97) := by
        rw [toNat_toUpper, if_pos h]
        omega
      rw [← hnat, Char.ofNat_toNat]
    rw [← hcapital, hupper, ← hc, hlower]
  · have hc : c.toUpper = c := Char.toNat_inj.mp (by rw [toNat_toUpper, if_neg h])
    rw [hc]

/-- So may the characters of a text with a capital. -/
theorem all_upperCamel (s : String) :
    (upperCamel s).toList.all isIdentifierPart = s.toList.all isIdentifierPart := by
  rw [toList_upperCamel]
  cases s.toList with
  | nil => rfl
  | cons c rest => rw [List.modifyHead_cons, List.all_cons, List.all_cons, isIdentifierPart_toUpper]

namespace ClassName

/-- The name of a generated class starts with a capital if that of the top-level class of the
container does. -/
theorem startsUppercase_flattened {container : ClassName}
    (h : startsUppercase container.topLevel = true) (suffix : String) :
    startsUppercase (container.flattened suffix).topLevel = true := by
  obtain ⟨t, ht⟩ :=
    Text.exists_intercalate_cons_eq_append "_" container.topLevel container.nested
  have htop : (container.flattened suffix).topLevel =
      String.intercalate "_" (container.topLevel :: container.nested) ++ suffix := rfl
  rw [htop, ht, String.append_assoc]
  exact startsUppercase_append h _

variable {container : ClassName} (h : ∀ name ∈ container.simpleNames, isIdentifier name = true)
include h

/-- The name of a generated class is an identifier if that of the container can be continued. -/
theorem isIdentifier_flattened (suffix : String) :
    isIdentifier (container.flattened suffix).topLevel = suffix.toList.all isIdentifierPart :=
  isIdentifier_append (isIdentifier_intercalate (List.cons_ne_nil _ _) h) suffix

/-- So the module of a method is named by an identifier if the name of the method has nothing but
characters that may stand in one. -/
theorem isIdentifier_generatedModule (method : String) :
    isIdentifier (container.generatedModule method).topLevel =
      method.toList.all isIdentifierPart := by
  rw [generatedModule, isIdentifier_flattened h, all_underscore_append, all_upperCamel]

/-- The module that includes others is always named by an identifier. -/
theorem isIdentifier_contributionsModule :
    isIdentifier container.contributionsModule.topLevel = true := by
  rw [contributionsModule, isIdentifier_flattened h]
  decide +kernel

end ClassName

end Multibinding
