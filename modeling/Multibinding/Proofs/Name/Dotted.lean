import Mathlib.Data.List.TakeWhile
import Multibinding.Name.ClassName
import Multibinding.Proofs.Text

/-!
# Dotted class names

Reading a dotted name is a guess at where its package ends. The guess can be repeated: a name that
was read once is written in a form from which it is read again, although not always in the form it
came from, as white space around it and a point in front of it are lost.

* `ClassName.parse_eq_ok_iff`: what a text is read as;
* `ClassName.isDotted_of_parse`: what is known about a name that was read;
* `ClassName.IsDotted.parse_canonical`: such a name is read back from its dotted form.
-/

namespace Multibinding

/-- No white space is part of an identifier. -/
theorem isIdentifierPart_of_isWhiteSpace {c : Char} (h : Unicode.isWhiteSpace c = true) :
    isIdentifierPart c = false := by
  have hall : Unicode.whiteSpace.all (!isIdentifierPart ·) = true := by decide +kernel
  simpa using List.all_eq_true.mp hall c (by simpa [Unicode.isWhiteSpace] using h)

/-- A letter at the start of an identifier may stand anywhere in it. -/
theorem isIdentifierPart_of_isIdentifierStart {c : Char} (h : isIdentifierStart c = true) :
    isIdentifierPart c = true := by
  simp only [isIdentifierStart, isIdentifierPart, isAlphanumeric, Bool.or_eq_true] at h ⊢
  rcases h with (h | h) | h <;> simp [h]

/-- What the characters of an identifier are. -/
theorem isIdentifierPart_of_mem {s : String} (h : isIdentifier s = true) :
    ∀ c ∈ s.toList, isIdentifierPart c = true := by
  rw [isIdentifier] at h
  cases hs : s.toList with
  | nil => simp
  | cons c rest =>
    rw [hs] at h
    simp only [Bool.and_eq_true, List.all_eq_true] at h
    exact List.forall_mem_cons.mpr ⟨isIdentifierPart_of_isIdentifierStart h.1, h.2⟩

/-- An identifier has no point. -/
theorem point_notMem_of_isIdentifier {s : String} (h : isIdentifier s = true) :
    '.' ∉ s.toList := by
  intro hmem
  have hpoint : isIdentifierPart '.' = false := by decide +kernel
  simp [isIdentifierPart_of_mem h '.' hmem] at hpoint

/-- An identifier is not empty. -/
theorem ne_empty_of_isIdentifier {s : String} (h : isIdentifier s = true) : s ≠ "" := by
  rintro rfl
  exact absurd h (by decide)

section Joined

variable {parts : List String} (h : ∀ part ∈ parts, isIdentifier part = true)

include h

/-- Identifiers are read back from the text that joins them with points. -/
theorem split_identifiers (hne : parts ≠ []) :
    Text.split '.' (String.intercalate "." parts) = parts :=
  Text.split_intercalate '.' hne fun part hpart => point_notMem_of_isIdentifier (h part hpart)

/-- There is no white space in that text. -/
theorem trim_identifiers :
    Text.trim Unicode.isWhiteSpace (String.intercalate "." parts) =
      String.intercalate "." parts := by
  apply Text.trim_eq_self
  intro d hd
  rcases Text.eq_or_mem_of_mem_intercalate '.' hd with rfl | ⟨part, hpart, hmem⟩
  · decide
  · by_contra hwhite
    have hidentifier := isIdentifierPart_of_mem (h part hpart) d hmem
    rw [isIdentifierPart_of_isWhiteSpace (by simpa using hwhite)] at hidentifier
    cases hidentifier

/-- The text is empty if it joins nothing. -/
theorem isEmpty_identifiers : (String.intercalate "." parts).isEmpty = parts.isEmpty := by
  match parts with
  | [] => rfl
  | [part] => simp [ne_empty_of_isIdentifier (h part List.mem_cons_self)]
  | part :: _ :: _ => simp [ne_empty_of_isIdentifier (h part List.mem_cons_self)]

end Joined

namespace ClassName

/-- The simple name of a class is one of its simple names. -/
theorem simpleName_mem (c : ClassName) : c.simpleName ∈ c.simpleNames := by
  rw [simpleName, simpleNames]
  cases hlast : c.nested.getLast? with
  | none => exact List.mem_cons_self
  | some name => exact List.mem_cons_of_mem _ (List.mem_of_getLast? hlast)

/-- Whether a text starts with a capital does not depend on what stands behind it. -/
theorem startsUppercase_append_of_ne_empty {s : String} (h : s ≠ "") (t : String) :
    startsUppercase (s ++ t) = startsUppercase s := by
  have hne : s.toList ≠ [] := by simpa using h
  rw [startsUppercase, startsUppercase, String.toList_append, List.head?_append_of_ne_nil _ hne]

/-- A text that starts with a capital still does if more text stands behind it. -/
theorem startsUppercase_append {s : String} (h : startsUppercase s = true) (t : String) :
    startsUppercase (s ++ t) = true := by
  rw [startsUppercase_append_of_ne_empty _ t, h]
  rintro rfl
  cases h

/-- Whether a class name can be told from its dotted form: all parts are identifiers, and the first
of them that starts with a capital is the simple name of the top-level class. -/
structure IsDotted (c : ClassName) : Prop where
  /-- The package has parts that are identifiers without a capital in front. -/
  package : ∃ parts : List String, c.package = String.intercalate "." parts ∧
    ∀ part ∈ parts, isIdentifier part = true ∧ startsUppercase part = false
  /-- The simple name of the top-level class starts with a capital. -/
  capital : startsUppercase c.topLevel = true
  /-- The simple names are identifiers. -/
  identifiers : ∀ name ∈ c.simpleNames, isIdentifier name = true

/-- The parts of a class name are kept as they are, if they are identifiers. -/
theorem ofParts_eq_ok_iff {package topLevel : String} {nested : List String} {c : ClassName} :
    ofParts package topLevel nested = .ok c ↔
      (∀ part ∈ (if package.isEmpty then [] else Text.split '.' package) ++ topLevel :: nested,
        isIdentifier part = true) ∧ ⟨package, topLevel, nested⟩ = c := by
  simp only [ofParts]
  generalize (if package.isEmpty then [] else Text.split '.' package) ++ topLevel :: nested = parts
  -- The name is refused exactly if one of the parts is found that is no identifier.
  cases hfind : parts.find? (!isIdentifier ·) with
  | none =>
    have hall : ∀ part ∈ parts, isIdentifier part = true := by
      simpa [List.find?_eq_none] using hfind
    simp only [Except.ok.injEq, iff_and_self]
    exact fun _ => hall
  | some part =>
    have hnone : isIdentifier part = false := by simpa using List.find?_some hfind
    have hmem : part ∈ parts := List.mem_of_find?_eq_some hfind
    simp only [reduceCtorEq, false_iff, not_and]
    intro hall
    simp [hall part hmem] at hnone

/-- The package of a text is cut into the parts that it joins, but an empty part alone is taken for
no part. -/
theorem split_joined {before : List String} (h : ∀ part ∈ before, '.' ∉ part.toList) :
    (if (String.intercalate "." before).isEmpty then []
      else Text.split '.' (String.intercalate "." before)) =
      if before = [""] then [] else before := by
  cases before with
  | nil => rfl
  | cons part rest =>
    -- Only an empty part alone makes an empty text.
    by_cases halone : part :: rest = [""]
    · rw [halone]
      rfl
    · have hne : (String.intercalate "." (part :: rest)).isEmpty = false := by
        cases rest with
        | nil => simpa using halone
        | cons next rest => simp
      rw [if_neg (by simp [hne]), if_neg halone]
      exact Text.split_intercalate '.' (List.cons_ne_nil _ _) h

/-- What a text is read as: the parts before the first one with a capital are the package, and that
one and those behind it are the simple names. All of them have to be identifiers, but an empty part
that stands before the capital alone is not looked at. -/
theorem parse_eq_ok_iff {s : String} {parts : List String} {c : ClassName}
    (hparts : Text.split '.' (Text.trim Unicode.isWhiteSpace s) = parts) :
    parse s = .ok c ↔
      c.package = String.intercalate "." (parts.takeWhile (!startsUppercase ·)) ∧
        c.simpleNames = parts.dropWhile (!startsUppercase ·) ∧
        ∀ part ∈ (if parts.takeWhile (!startsUppercase ·) = [""] then []
          else parts.takeWhile (!startsUppercase ·)) ++ c.simpleNames,
          isIdentifier part = true := by
  have hpoint : ∀ part ∈ parts.takeWhile (!startsUppercase ·), '.' ∉ part.toList := by
    intro part hpart
    rw [← hparts] at hpart
    exact Text.separator_notMem_of_mem_split (List.takeWhile_subset _ hpart)
  rw [parse]
  simp only [hparts]
  split
  next hempty =>
    -- An empty text is a single part, and that has no capital.
    obtain rfl : [""] = parts := by
      rw [← hparts, String.isEmpty_iff.mp hempty]
      rfl
    refine iff_of_false (by simp) ?_
    rintro ⟨-, hsimple, -⟩
    cases hsimple
  next =>
    cases hdrop : parts.dropWhile (!startsUppercase ·) with
    | nil => simp [simpleNames]
    | cons topLevel nested =>
      simp only [ofParts_eq_ok_iff, split_joined hpoint]
      constructor
      · rintro ⟨hidentifiers, rfl⟩
        exact ⟨rfl, rfl, hidentifiers⟩
      · rintro ⟨hpackage, hsimple, hidentifiers⟩
        obtain ⟨rfl, rfl⟩ := List.cons.inj hsimple
        refine ⟨hidentifiers, ?_⟩
        rw [← hpackage]

/-- The parts from the first one with a capital on start with a capital. -/
theorem startsUppercase_of_eq_dropWhile {c : ClassName} {parts : List String}
    (h : c.simpleNames = parts.dropWhile (!startsUppercase ·)) :
    startsUppercase c.topLevel = true := by
  have hhead := List.head?_dropWhile_not (!startsUppercase ·) parts
  simpa [← h, simpleNames] using hhead

/-- What is known about a name that was read. -/
theorem isDotted_of_parse {s : String} {c : ClassName} (h : parse s = .ok c) : c.IsDotted := by
  obtain ⟨hpackage, hsimple, hidentifiers⟩ := (parse_eq_ok_iff rfl).mp h
  obtain ⟨hbefore, hnames⟩ := List.forall_mem_append.mp hidentifiers
  refine ⟨⟨_, ?_, fun part hpart => ⟨hbefore part hpart, ?_⟩⟩,
    startsUppercase_of_eq_dropWhile hsimple, hnames⟩
  · -- An empty part alone is joined like no part.
    rw [hpackage]
    split
    next halone =>
      rw [halone]
      rfl
    next => rfl
  · split at hpart
    next => cases hpart
    next => simpa using List.mem_takeWhile_imp hpart

section Canonical

variable {c : ClassName} {before : List String}
  (hpackage : c.package = String.intercalate "." before)
  (hbefore : ∀ part ∈ before, isIdentifier part = true)

include hpackage hbefore

/-- The dotted form joins the parts of the package and the simple names. -/
theorem canonical_eq_intercalate :
    c.canonical = String.intercalate "." (before ++ c.simpleNames) := by
  rw [canonical, hpackage, isEmpty_identifiers hbefore]
  cases before with
  | nil => rfl
  | cons part rest =>
    rw [String.intercalate_append_of_ne_nil (by simp) (by simp [simpleNames])]
    rfl

/-- The package falls into its parts. -/
theorem split_package :
    (if c.package.isEmpty then [] else Text.split '.' c.package) = before := by
  rw [hpackage, isEmpty_identifiers hbefore]
  cases before with
  | nil => rfl
  | cons part rest => exact split_identifiers hbefore (List.cons_ne_nil _ _)

end Canonical

/-- A name whose parts are known is read back from its dotted form. -/
theorem IsDotted.parse_canonical {c : ClassName} (hc : c.IsDotted) :
    parse c.canonical = .ok c := by
  obtain ⟨before, hpackage, hbefore⟩ := hc.package
  have hidentifiers : ∀ part ∈ before, isIdentifier part = true :=
    fun part hpart => (hbefore part hpart).1
  have hall : ∀ part ∈ before ++ c.simpleNames, isIdentifier part = true :=
    List.forall_mem_append.mpr ⟨hidentifiers, hc.identifiers⟩
  have hne : before ++ c.simpleNames ≠ [] := by simp [simpleNames]
  have hempty : (before ++ c.simpleNames).isEmpty = false := by simp [simpleNames]
  -- The first part with a capital is where the package ends.
  have hsmall : ∀ part ∈ before, (!startsUppercase part) = true := by
    intro part hpart
    simp [(hbefore part hpart).2]
  have hdrop : (before ++ c.simpleNames).dropWhile (!startsUppercase ·) = c.simpleNames := by
    rw [List.dropWhile_append_of_pos hsmall, simpleNames,
      List.dropWhile_cons_of_neg (by simp [hc.capital])]
  have htake : (before ++ c.simpleNames).takeWhile (!startsUppercase ·) = before := by
    rw [List.takeWhile_append_of_pos hsmall, simpleNames,
      List.takeWhile_cons_of_neg (by simp [hc.capital]), List.append_nil]
  rw [parse, canonical_eq_intercalate hpackage hidentifiers, trim_identifiers hall]
  simp only [isEmpty_identifiers hall, hempty, split_identifiers hall hne, hdrop, htake]
  rw [← hpackage]
  exact ofParts_eq_ok_iff.mpr ⟨(split_package hpackage hidentifiers).symm ▸ hall, rfl⟩

end ClassName

end Multibinding
