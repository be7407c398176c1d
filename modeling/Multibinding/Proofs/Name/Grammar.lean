import Multibinding.Proofs.Name.Dotted

/-!
# Which texts name classes

A text names a class if it joins identifiers with points and one of them starts with a capital.
Every such text is read, and nothing of it is lost. Beyond these, one kind of text is read: where
the first identifier starts with a capital already, a point may stand in front, and it is lost.

* `ClassName.isQualified_iff`: the identifiers of a text are found by cutting it;
* `ClassName.exists_isNamedBy`: there is a class for them;
* `ClassName.parse_eq_ok_iff_isNamedBy`: from which identifiers a class name is read;
* `ClassName.parse_accepts_iff`: which texts are read, and what becomes of them.
-/

namespace Multibinding.ClassName

section Grammar

/-- Whether a text can name a class: it joins identifiers with points, and one of them starts with a
capital. -/
def IsQualified (text : String) : Prop :=
  ∃ parts, text = String.intercalate "." parts ∧ (∀ part ∈ parts, isIdentifier part = true) ∧
    ∃ part ∈ parts, startsUppercase part = true

/-- The identifiers of a text are found by cutting it at the points. -/
theorem isQualified_iff {text : String} :
    IsQualified text ↔
      (∀ part ∈ Text.split '.' text, isIdentifier part = true) ∧
        ∃ part ∈ Text.split '.' text, startsUppercase part = true := by
  constructor
  · rintro ⟨parts, rfl, hidentifiers, hcapital⟩
    have ⟨part, hpart, _⟩ := hcapital
    rw [split_identifiers hidentifiers (List.ne_nil_of_mem hpart)]
    exact ⟨hidentifiers, hcapital⟩
  · rintro ⟨hidentifiers, hcapital⟩
    exact ⟨_, (Text.intercalate_split '.' text).symm, hidentifiers, hcapital⟩

instance (text : String) : Decidable (IsQualified text) :=
  decidable_of_iff _ isQualified_iff.symm

/-- A point in front of a text adds an empty part. -/
theorem split_point_append (text : String) :
    Text.split '.' ("." ++ text) = "" :: Text.split '.' text :=
  Text.split_append_append '.' "" text

/-- No text with a point in front joins identifiers. -/
theorem not_isQualified_point_append (text : String) : ¬IsQualified ("." ++ text) := by
  rw [isQualified_iff, split_point_append]
  rintro ⟨hidentifiers, -⟩
  exact ne_empty_of_isIdentifier (hidentifiers "" List.mem_cons_self) rfl

end Grammar

/-! ## The class that identifiers name -/

/-- How a class name falls into identifiers: those before the first one that starts with a capital
are its package, and that one and those behind it are its simple names. -/
structure IsNamedBy (c : ClassName) (parts : List String) : Prop where
  identifiers : ∀ part ∈ parts, isIdentifier part = true
  package : c.package = String.intercalate "." (parts.takeWhile (!startsUppercase ·))
  simpleNames : c.simpleNames = parts.dropWhile (!startsUppercase ·)

/-- Identifiers, one of which starts with a capital, name a class. -/
theorem exists_isNamedBy {parts : List String} (h : ∀ part ∈ parts, isIdentifier part = true)
    (hcapital : ∃ part ∈ parts, startsUppercase part = true) :
    ∃ c : ClassName, c.IsNamedBy parts := by
  cases hdrop : parts.dropWhile (!startsUppercase ·) with
  | nil =>
    obtain ⟨part, hpart, hstarts⟩ := hcapital
    have hsmall := List.dropWhile_eq_nil_iff.mp hdrop part hpart
    simp [hstarts] at hsmall
  | cons topLevel nested => exact ⟨⟨_, topLevel, nested⟩, h, rfl, hdrop.symm⟩

namespace IsNamedBy

variable {c : ClassName} {parts : List String} (h : c.IsNamedBy parts)
include h

/-- There are identifiers at all. -/
theorem parts_ne_nil : parts ≠ [] := by
  rintro rfl
  cases h.simpleNames

/-- The package is made of identifiers. -/
theorem identifiers_before :
    ∀ part ∈ parts.takeWhile (!startsUppercase ·), isIdentifier part = true :=
  fun part hpart => h.identifiers part (List.takeWhile_subset _ hpart)

/-- The package and the simple names are all of the identifiers. -/
theorem takeWhile_append_simpleNames :
    parts.takeWhile (!startsUppercase ·) ++ c.simpleNames = parts := by
  rw [h.simpleNames, List.takeWhile_append_dropWhile]

/-- The dotted form joins all of the identifiers. -/
theorem canonical_eq : c.canonical = String.intercalate "." parts := by
  rw [canonical_eq_intercalate h.package h.identifiers_before, h.takeWhile_append_simpleNames]

/-- The dotted form can name a class. -/
theorem isQualified : IsQualified c.canonical := by
  refine ⟨parts, h.canonical_eq, h.identifiers, c.topLevel, ?_,
    startsUppercase_of_eq_dropWhile h.simpleNames⟩
  apply List.dropWhile_subset (!startsUppercase ·)
  rw [← h.simpleNames]
  exact List.mem_cons_self

/-- There is no package exactly if no identifier stands before the first one with a capital. -/
theorem package_eq_empty_iff : c.package = "" ↔ parts.takeWhile (!startsUppercase ·) = [] := by
  rw [h.package, ← String.isEmpty_iff, isEmpty_identifiers h.identifiers_before, List.isEmpty_iff]

/-- That is so exactly if the dotted form starts with a capital. -/
theorem package_eq_empty_iff_startsUppercase :
    c.package = "" ↔ startsUppercase c.canonical = true := by
  rw [h.package_eq_empty_iff, h.canonical_eq]
  cases parts with
  | nil => exact absurd rfl h.parts_ne_nil
  | cons part rest =>
    -- An identifier is not empty, so that the text starts with a character of the first one.
    obtain ⟨t, ht⟩ := Text.exists_intercalate_cons_eq_append "." part rest
    have hne := ne_empty_of_isIdentifier (h.identifiers part List.mem_cons_self)
    rw [ht, startsUppercase_append_of_ne_empty hne, List.takeWhile_cons]
    cases startsUppercase part <;> simp

variable {s : String}

/-- The class is read from the text that joins the identifiers. -/
theorem parse_eq_ok (htext : Text.trim Unicode.isWhiteSpace s = String.intercalate "." parts) :
    parse s = .ok c := by
  have hsplit := split_identifiers h.identifiers h.parts_ne_nil
  -- No identifier is empty, so that there is no empty part to stand alone.
  have halone : parts.takeWhile (!startsUppercase ·) ≠ [""] := by
    intro halone
    exact ne_empty_of_isIdentifier (h.identifiers_before "" (by simp [halone])) rfl
  rw [parse_eq_ok_iff (htext ▸ hsplit), if_neg halone, h.takeWhile_append_simpleNames]
  exact ⟨h.package, h.simpleNames, h.identifiers⟩

/-- If it has no package, it is also read from that text with a point in front. -/
theorem parse_point_eq_ok (hpackage : c.package = "")
    (htext : Text.trim Unicode.isWhiteSpace s = "." ++ String.intercalate "." parts) :
    parse s = .ok c := by
  have hsplit := split_point_append (String.intercalate "." parts)
  rw [split_identifiers h.identifiers h.parts_ne_nil] at hsplit
  -- The empty part that the point adds is all that stands before the first capital.
  have hbefore := h.package_eq_empty_iff.mp hpackage
  have htake : ("" :: parts).takeWhile (!startsUppercase ·) = [""] := by
    rw [List.takeWhile_cons_of_pos rfl, hbefore]
  have hall := h.takeWhile_append_simpleNames
  rw [hbefore, List.nil_append] at hall
  rw [parse_eq_ok_iff (htext ▸ hsplit), htake, if_pos rfl, List.nil_append, hall]
  exact ⟨hpackage, hall.symm.trans h.simpleNames, h.identifiers⟩

end IsNamedBy

/-- A class that was read is named by identifiers, and the text joins them, perhaps with a point in
front. -/
theorem exists_isNamedBy_of_parse {s : String} {c : ClassName} (hc : parse s = .ok c) :
    ∃ parts, c.IsNamedBy parts ∧
      (Text.trim Unicode.isWhiteSpace s = String.intercalate "." parts ∨
        c.package = "" ∧
          Text.trim Unicode.isWhiteSpace s = "." ++ String.intercalate "." parts) := by
  obtain ⟨hpackage, hsimple, hidentifiers⟩ := (parse_eq_ok_iff rfl).mp hc
  generalize Text.trim Unicode.isWhiteSpace s = text at *
  have htext := Text.intercalate_split '.' text
  have hjoined := List.takeWhile_append_dropWhile (p := (!startsUppercase ·))
    (l := Text.split '.' text)
  rw [← hsimple] at hjoined
  by_cases halone : (Text.split '.' text).takeWhile (!startsUppercase ·) = [""]
  · -- The empty part comes from a point in front, and the other parts are the simple names.
    have hcapital := startsUppercase_of_eq_dropWhile hsimple
    rw [if_pos halone, List.nil_append] at hidentifiers
    rw [halone] at hpackage hjoined
    refine ⟨c.simpleNames, ⟨hidentifiers, ?_, ?_⟩, Or.inr ⟨hpackage, ?_⟩⟩
    · rw [hpackage, simpleNames, List.takeWhile_cons_of_neg (by simp [hcapital])]
      rfl
    · rw [simpleNames, List.dropWhile_cons_of_neg (by simp [hcapital])]
    · rw [← htext, ← hjoined]
      exact String.intercalate_cons_of_ne_nil (List.cons_ne_nil _ _)
  · rw [if_neg halone, hjoined] at hidentifiers
    exact ⟨_, ⟨hidentifiers, hpackage, hsimple⟩, Or.inl htext.symm⟩

/-- A class is read exactly from the identifiers that name it, joined with points. If it has no
package, a point may stand in front of them. -/
theorem parse_eq_ok_iff_isNamedBy {s : String} {c : ClassName} :
    parse s = .ok c ↔
      ∃ parts, c.IsNamedBy parts ∧
        (Text.trim Unicode.isWhiteSpace s = String.intercalate "." parts ∨
          c.package = "" ∧
            Text.trim Unicode.isWhiteSpace s = "." ++ String.intercalate "." parts) := by
  refine ⟨exists_isNamedBy_of_parse, ?_⟩
  rintro ⟨parts, h, htext | ⟨hpackage, htext⟩⟩
  · exact h.parse_eq_ok htext
  · exact h.parse_point_eq_ok hpackage htext

/-- A text is read as a class name exactly if, without the white space around it, it joins
identifiers with points and one of them starts with a capital, or if it is such a text that starts
with the capital and has a point in front. The identifiers before the first capital are the package
and the others are the simple names, so that nothing is lost but the point in front. -/
theorem parse_accepts_iff (s : String) :
    let text := Text.trim Unicode.isWhiteSpace s
    ((∃ c, parse s = .ok c) ↔
        IsQualified text ∨
          ∃ name, text = "." ++ name ∧ IsQualified name ∧ startsUppercase name = true) ∧
      ∀ c, parse s = .ok c →
        (IsQualified text → c.canonical = text) ∧
          (¬IsQualified text → "." ++ c.canonical = text) ∧
          ∃ parts, c.canonical = String.intercalate "." parts ∧ c.IsNamedBy parts := by
  simp only [parse_eq_ok_iff_isNamedBy]
  generalize Text.trim Unicode.isWhiteSpace s = text
  refine ⟨⟨?_, ?_⟩, ?_⟩
  -- A point in front stands for an empty package, so that the first identifier has the capital.
  · rintro ⟨c, parts, h, htext | ⟨hpackage, htext⟩⟩
    all_goals rw [← h.canonical_eq] at htext
    · exact Or.inl (htext ▸ h.isQualified)
    · exact Or.inr ⟨c.canonical, htext, h.isQualified,
        h.package_eq_empty_iff_startsUppercase.mp hpackage⟩
  · rintro (⟨parts, htext, hidentifiers, hcapital⟩ |
      ⟨name, htext, ⟨parts, rfl, hidentifiers, hcapital⟩, hstarts⟩)
    all_goals obtain ⟨c, h⟩ := exists_isNamedBy hidentifiers hcapital
    · exact ⟨c, parts, h, Or.inl htext⟩
    · rw [← h.canonical_eq] at hstarts
      exact ⟨c, parts, h, Or.inr ⟨h.package_eq_empty_iff_startsUppercase.mpr hstarts, htext⟩⟩
  · rintro c ⟨parts, h, htext⟩
    rw [← h.canonical_eq] at htext
    refine ⟨fun hqualified => ?_, fun hnot => ?_, parts, h.canonical_eq, h⟩
    · rcases htext with rfl | ⟨-, rfl⟩
      · rfl
      · exact absurd hqualified (not_isQualified_point_append _)
    · rcases htext with rfl | ⟨-, rfl⟩
      · exact absurd h.isQualified hnot
      · rfl

/-- Such a point in front makes an empty part, which is no identifier. The text is read all the
same, and the dotted form of what is read is another text. -/
theorem parse_point_lost :
    ¬IsQualified (Text.trim Unicode.isWhiteSpace ".Name") ∧
      parse ".Name" = .ok ⟨"", "Name", []⟩ ∧
      (⟨"", "Name", []⟩ : ClassName).canonical ≠ Text.trim Unicode.isWhiteSpace ".Name" := by
  decide +kernel

end Multibinding.ClassName
