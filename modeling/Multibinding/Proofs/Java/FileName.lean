import Multibinding.Java.SourceFile
import Multibinding.Proofs.Emission.Path
import Multibinding.Proofs.Name.Flattened

/-!
# The names of source files and of their classes

A source file is registered under the name of a class, but its path and its text only have the name
of the type that it declares. Where the two agree, the path tells which class the file is of, and
where the names are identifiers, the path has a step for each part of the package and one for the
file.

* `SourceFile.wellNamed_iff`: when a path is made of identifiers;
* `SourceFile.name_eq_of_steps_eq`: well-named files of one place are of one class;
* `SourceFile.name_eq_of_path_eq`: so are files of one path, whatever their names are.
-/

namespace Multibinding

open DiskPath (IsStep)

/-- No slash is part of an identifier. -/
theorem slash_notMem_of_isIdentifier {s : String} (h : isIdentifier s = true) :
    '/' ∉ s.toList := by
  intro hmem
  have hslash : isIdentifierPart '/' = false := by decide +kernel
  rw [isIdentifierPart_of_mem h '/' hmem] at hslash
  cases hslash

/-- An identifier is a step of a path. -/
theorem isStep_of_isIdentifier {s : String} (h : isIdentifier s = true) : IsStep s where
  ne_empty := ne_empty_of_isIdentifier h
  ne_point := by
    rintro rfl
    exact absurd h (by decide +kernel)
  slash := slash_notMem_of_isIdentifier h

/-- A text without a `j` is no name of a file with an ending. -/
theorem append_java_ne {s t : String} (ht : 'j' ∉ t.toList) : s ++ ".java" ≠ t := by
  rintro rfl
  simp at ht

/-- So is an identifier with an ending. -/
theorem isStep_append_java {s : String} (h : isIdentifier s = true) : IsStep (s ++ ".java") where
  ne_empty := append_java_ne (by decide)
  ne_point := append_java_ne (by decide)
  slash := by
    rw [String.toList_append, List.mem_append, not_or]
    exact ⟨slash_notMem_of_isIdentifier h, by decide⟩

/-- A file of such a name does not start at the root of the file system. -/
theorem isAbsolute_append_java {s : String} (h : isIdentifier s = true) :
    DiskPath.isAbsolute (s ++ ".java") = false := by
  have hfile := DiskPath.isAbsolute_intercalate
    (List.forall_mem_singleton.mpr (isStep_append_java h))
  rwa [String.intercalate_singleton] at hfile

namespace ClassName

/-- Whether it can be told from a class name where its package ends: the package has parts that are
identifiers without a capital in front, and the top-level class is named with one. -/
structure IsCapitalized (c : ClassName) : Prop where
  package : ∃ parts : List String, c.package = String.intercalate "." parts ∧
    ∀ part ∈ parts, isIdentifier part = true ∧ startsUppercase part = false
  capital : startsUppercase c.topLevel = true

/-- A slash is no capital. -/
theorem ne_slash_of_isUppercase {c : Char} (h : Unicode.isUppercase c = true) : c ≠ '/' := by
  rintro rfl
  have hslash : Unicode.isUppercase '/' = false := by decide +kernel
  rw [hslash] at h
  cases h

/-- A text that starts with a capital has a first character. -/
theorem exists_toList_eq_cons {s : String} (h : startsUppercase s = true) :
    ∃ c cs, s.toList = c :: cs ∧ Unicode.isUppercase c = true := by
  rw [startsUppercase] at h
  cases hlist : s.toList with
  | nil =>
    rw [hlist] at h
    cases h
  | cons c cs =>
    rw [hlist] at h
    exact ⟨c, cs, rfl, h⟩

/-- It does not start at the root of the file system. -/
theorem isAbsolute_of_startsUppercase {s : String} (h : startsUppercase s = true) :
    DiskPath.isAbsolute s = false := by
  obtain ⟨c, cs, hlist, hc⟩ := exists_toList_eq_cons h
  rw [DiskPath.isAbsolute, hlist]
  exact beq_eq_false_iff_ne.mpr fun heq => ne_slash_of_isUppercase hc (Option.some.inj heq)

/-- Cut at slashes, it has a first part that starts with a capital. -/
theorem exists_split_eq_cons {s : String} (h : startsUppercase s = true) :
    ∃ first rest, Text.split '/' s = first :: rest ∧ startsUppercase first = true := by
  obtain ⟨c, cs, hlist, hc⟩ := exists_toList_eq_cons h
  have hslash : (c == '/') = false := beq_eq_false_iff_ne.mpr (ne_slash_of_isUppercase hc)
  obtain ⟨first, rest, hrest⟩ := List.exists_cons_of_ne_nil (List.splitOn_ne_nil '/' cs)
  refine ⟨String.ofList (c :: first), rest.map String.ofList, ?_, ?_⟩
  · rw [Text.split, hlist, List.splitOn_cons_eq_if_modifyHead, hslash, hrest]
    rfl
  · rw [startsUppercase, String.toList_ofList]
    exact hc

end ClassName

namespace Java.SourceFile

/-- Whether a file declares the class that it is registered under: a top-level class that is named
like the type. -/
structure DeclaresItsClass (f : SourceFile) : Prop where
  topLevel : f.name.isTopLevel = true
  simpleName : f.name.simpleName = f.type.name

/-- Whether a file has a name and a path of identifiers: a step for each part of the package, and
one for the file. -/
structure WellNamed (f : SourceFile) : Prop where
  identifiers : ∀ name ∈ f.name.simpleNames, isIdentifier name = true
  path : ∃ parts name, f.name.package = String.intercalate "." parts ∧
    (∀ part ∈ parts, isIdentifier part = true) ∧ isIdentifier name = true ∧
      f.path = String.intercalate "/" (parts ++ [name ++ ".java"])

section Path

variable {f : SourceFile} {parts : List String} (hparts : ∀ part ∈ parts, isIdentifier part = true)
include hparts

/-- The path joins the parts of the package and the name of the file, unless that starts at the root
of the file system. -/
theorem path_eq (hpackage : f.name.package = String.intercalate "." parts)
    (hrelative : DiskPath.isAbsolute (f.type.name ++ ".java") = false) :
    f.path = String.intercalate "/" (parts ++ [f.type.name ++ ".java"]) := by
  have hhead : ((f.type.name ++ ".java").toList.head? == some '/') = false := hrelative
  rw [path, hpackage, isEmpty_identifiers hparts, hhead, Bool.or_false]
  cases parts with
  | nil => rfl
  | cons part rest =>
    rw [List.isEmpty_cons, if_neg Bool.false_ne_true,
      split_identifiers hparts (List.cons_ne_nil _ _)]

/-- No step of such a path leads back. -/
theorem up_notMem_path (name : String) : ".." ∉ parts ++ [name ++ ".java"] := by
  rw [List.mem_append, List.mem_singleton, not_or]
  exact ⟨fun hmem => absurd (hparts _ hmem) (by decide +kernel),
    fun heq => append_java_ne (by decide) heq.symm⟩

/-- Identifiers are steps of a path, with the name of a file behind them. -/
theorem isStep_of_mem_path {name : String} (hname : isIdentifier name = true) :
    ∀ step ∈ parts ++ [name ++ ".java"], IsStep step :=
  List.forall_mem_append.mpr ⟨fun part hpart => isStep_of_isIdentifier (hparts part hpart),
    List.forall_mem_singleton.mpr (isStep_append_java hname)⟩

end Path

section Classes

variable {f g : SourceFile}

/-- Where it can be told where the package ends and the type is named like the class, a file is well
named if the simple names of its class are identifiers. -/
theorem wellNamed_iff (hname : f.name.IsCapitalized) (hsimple : f.name.simpleName = f.type.name) :
    f.WellNamed ↔ ∀ name ∈ f.name.simpleNames, isIdentifier name = true := by
  refine ⟨WellNamed.identifiers, fun h => ?_⟩
  obtain ⟨parts, hpackage, hparts⟩ := hname.package
  have htype : isIdentifier f.type.name = true := hsimple ▸ h _ f.name.simpleName_mem
  exact ⟨h, parts, f.type.name, hpackage, fun part hpart => (hparts part hpart).1, htype,
    path_eq (fun part hpart => (hparts part hpart).1) hpackage (isAbsolute_append_java htype)⟩

/-- The steps of the path of a well-named file. -/
theorem WellNamed.exists_steps (h : f.WellNamed) : ∃ parts name,
    f.name.package = String.intercalate "." parts ∧ (∀ part ∈ parts, isIdentifier part = true) ∧
      isIdentifier name = true ∧ DiskPath.steps f.path = parts ++ [name ++ ".java"] := by
  obtain ⟨parts, name, hpackage, hparts, hname, hpath⟩ := h.path
  refine ⟨parts, name, hpackage, hparts, hname, ?_⟩
  rw [hpath, DiskPath.steps_intercalate (isStep_of_mem_path hparts hname)]

/-- A well-named file does not start at the root of the file system. -/
theorem WellNamed.isAbsolute_path (h : f.WellNamed) : DiskPath.isAbsolute f.path = false := by
  obtain ⟨parts, name, -, hparts, hname, hpath⟩ := h.path
  rw [hpath]
  exact DiskPath.isAbsolute_intercalate (isStep_of_mem_path hparts hname)

/-- The path of a well-named file does not lead back. -/
theorem WellNamed.up_notMem_steps (h : f.WellNamed) : ".." ∉ DiskPath.steps f.path := by
  obtain ⟨parts, name, -, hparts, -, hsteps⟩ := h.exists_steps
  rw [hsteps]
  exact up_notMem_path hparts name

/-- The name of a class that a file declares. -/
theorem DeclaresItsClass.name_eq (h : f.DeclaresItsClass) :
    f.name = ⟨f.name.package, f.type.name, []⟩ := by
  have hnested : f.name.nested = [] := List.isEmpty_iff.mp h.topLevel
  have htop : f.name.topLevel = f.type.name := by
    rw [← h.simpleName, ClassName.simpleName, hnested]
    rfl
  rw [← htop, ← hnested]

/-- The name and the path of a well-named file that declares its class. -/
theorem WellNamed.exists_parts (h : f.WellNamed) (hclass : f.DeclaresItsClass) :
    ∃ parts, f.name = ⟨String.intercalate "." parts, f.type.name, []⟩ ∧
      (∀ part ∈ parts, isIdentifier part = true) ∧
      DiskPath.steps f.path = parts ++ [f.type.name ++ ".java"] := by
  obtain ⟨parts, -, hpackage, hparts, -, -⟩ := h.path
  have hsimple := hclass.simpleName
  have htype : isIdentifier f.type.name = true := hsimple ▸ h.identifiers _ f.name.simpleName_mem
  refine ⟨parts, ?_, hparts, ?_⟩
  · rw [← hpackage]
    exact hclass.name_eq
  · rw [path_eq hparts hpackage (isAbsolute_append_java htype),
      DiskPath.steps_intercalate (isStep_of_mem_path hparts htype)]

/-- Well-named files that declare their classes are of one class if their paths have the same
steps. -/
theorem name_eq_of_steps_eq (hf : f.WellNamed) (hg : g.WellNamed) (hfclass : f.DeclaresItsClass)
    (hgclass : g.DeclaresItsClass) (h : DiskPath.steps f.path = DiskPath.steps g.path) :
    f.name = g.name := by
  obtain ⟨parts, hfname, -, hfsteps⟩ := hf.exists_parts hfclass
  obtain ⟨parts', hgname, -, hgsteps⟩ := hg.exists_parts hgclass
  rw [hfsteps, hgsteps] at h
  obtain ⟨hparts, hlast⟩ := List.append_inj' h rfl
  have htype : f.type.name = g.type.name :=
    (String.append_left_inj ".java").mp (List.singleton_inj.mp hlast)
  rw [hfname, hgname, hparts, htype]

/-- The first part with a capital in a path is where its package ends. -/
theorem exists_package_of_isCapitalized (hname : f.name.IsCapitalized)
    (hclass : f.DeclaresItsClass) :
    let steps := Text.split '/' f.path
    ∃ parts, f.name.package = String.intercalate "." parts ∧
      steps.takeWhile (!ClassName.startsUppercase ·) = parts ∧
      steps.dropWhile (!ClassName.startsUppercase ·) = Text.split '/' (f.type.name ++ ".java") := by
  obtain ⟨parts, hpackage, hparts⟩ := hname.package
  -- The directories start without a capital, and the name of the file starts with one.
  have hcapital : ClassName.startsUppercase (f.type.name ++ ".java") = true := by
    have htop := hname.capital
    rw [hclass.name_eq] at htop
    exact ClassName.startsUppercase_append htop _
  obtain ⟨first, rest, hfile, hfirst⟩ := ClassName.exists_split_eq_cons hcapital
  have hidentifiers : ∀ part ∈ parts, isIdentifier part = true := fun part h => (hparts part h).1
  have hsmall : ∀ part ∈ parts, (!ClassName.startsUppercase part) = true := fun part hpart => by
    rw [(hparts part hpart).2]
    rfl
  have hsteps : Text.split '/' f.path = parts ++ first :: rest := by
    rw [path_eq hidentifiers hpackage (ClassName.isAbsolute_of_startsUppercase hcapital), ← hfile]
    exact Text.split_intercalate_append '/'
      (fun part hpart => slash_notMem_of_isIdentifier (hidentifiers part hpart)) _
  refine ⟨parts, hpackage, ?_, ?_⟩
  · rw [hsteps, List.takeWhile_append_of_pos hsmall, List.takeWhile_cons_of_neg (by simp [hfirst]),
      List.append_nil]
  · rw [hsteps, List.dropWhile_append_of_pos hsmall, List.dropWhile_cons_of_neg (by simp [hfirst]),
      hfile]

/-- Files that declare their classes are of one class if they have one path, even if their types are
not named by identifiers. -/
theorem name_eq_of_path_eq (hf : f.name.IsCapitalized) (hg : g.name.IsCapitalized)
    (hfclass : f.DeclaresItsClass) (hgclass : g.DeclaresItsClass) (h : f.path = g.path) :
    f.name = g.name := by
  obtain ⟨parts, hfpackage, hfparts, hffile⟩ := exists_package_of_isCapitalized hf hfclass
  obtain ⟨parts', hgpackage, hgparts, hgfile⟩ := exists_package_of_isCapitalized hg hgclass
  rw [h] at hfparts hffile
  have htype : f.type.name = g.type.name :=
    (String.append_left_inj ".java").mp (Text.eq_of_split_eq (hffile.symm.trans hgfile))
  rw [hfclass.name_eq, hgclass.name_eq, hfpackage, hgpackage, ← hfparts, ← hgparts, htype]

end Classes

end Java.SourceFile

end Multibinding
