import Multibinding.Proofs.Config.LoadedNames
import Multibinding.Proofs.Declaration.LoadedNames
import Multibinding.Proofs.Emission.Placement
import Multibinding.Proofs.Json.Pretty
import Multibinding.Proofs.Round.FileNames
import Multibinding.Proofs.Round.InjectionModule

/-!
# Where the files of a run are put

A class name is checked when it is read, but the name of a method is not, and it becomes part of the
name of a generated class and of the path of its file. If the characters of the name may stand in an
identifier, the file is well named, and a directory filer puts it in the directory of its package.
If not, the name may have slashes, and lead anywhere.

* `FileTree.InPackage`: what may be put into a tree for a file;
* `FileTree.Puts.inPackage`: well-named files are put in the directories of their packages;
* `wellNamed_and_confined`: which files of a run are well named, and what a directory filer does
  with them.
-/

namespace Multibinding

open Java (SourceFile)
open Processor (handOver)
open DirectoryFiler (onDisk)

variable {σ : Type}

namespace FileTree

variable {tree : FileTree} {root : String} {file : SourceFile}

/-- What may be put into a tree for a file, given the root of a directory filer: directories on the
way to the root, the directories of the package, and in the innermost of them the source under a
name that is an identifier with an ending. -/
inductive InPackage (tree : FileTree) (root : String) (file : SourceFile) :
    List String → DiskEntry → Prop where
  | above {place : List String} (hway : tree.OnWay (DiskPath.steps root) place) :
      InPackage tree root file place .directory
  | package {dir parts outer : List String} (hdir : tree.place root = .ok dir)
      (hpackage : file.name.package = String.intercalate "." parts)
      (hparts : ∀ part ∈ parts, isIdentifier part = true) (houter : outer <+: parts) :
      InPackage tree root file (dir ++ outer) .directory
  | source {dir parts : List String} {name : String} (hdir : tree.place root = .ok dir)
      (hpackage : file.name.package = String.intercalate "." parts)
      (hparts : ∀ part ∈ parts, isIdentifier part = true) (hname : isIdentifier name = true) :
      InPackage tree root file (dir ++ parts ++ [name ++ ".java"]) (.file (some file.source))

/-- Well-named files are put in the directories of their packages. -/
theorem Puts.inPackage (hnamed : file.WellNamed) {written : Bool} {place : List String}
    {entry : DiskEntry}
    (h : Puts (DiskPath.join root file.path) file.source written tree place entry) :
    tree.InPackage root file place entry := by
  obtain ⟨parts, name, hpackage, hparts, hname, hsteps⟩ := hnamed.exists_steps
  cases entry with
  | absent e => exact h.elim
  | directory =>
    -- The package leads nowhere back, so that a place on the way is above it or in it.
    have hforth : ".." ∉ parts := fun hmem =>
      SourceFile.up_notMem_path hparts name (List.mem_append_left _ hmem)
    have hway : tree.OnWay (DiskPath.steps root ++ parts) place := by
      have hway : tree.OnWay (DiskPath.steps (DiskPath.join root file.path)).dropLast place := h
      rwa [DiskPath.steps_join root hnamed.isAbsolute_path, hsteps, ← List.append_assoc,
        List.dropLast_concat] at hway
    rcases OnWay.of_append hforth hway with habove | ⟨dir, outer, hdir, houter, rfl⟩
    · exact .above habove
    · exact .package hdir hpackage hparts houter
  | file content =>
    obtain ⟨-, hplace, rfl⟩ := h
    obtain ⟨dir, hdir, rfl⟩ := place_join hnamed.isAbsolute_path hnamed.up_notMem_steps hplace
    rw [hsteps, ← List.append_assoc]
    exact .source hdir hpackage hparts hname

end FileTree

/-- A processor whose configuration was loaded from a text, at work over indexes that were loaded
from texts, with a filer of any kind. A file that it hands over is well named exactly if it is not
made for methods whose names have other characters than those that may stand in identifiers. A
directory filer that is handed a well-named file touches nothing but the directories that it needs
and the file in the directory of its package. A run with a directory filer touches no more than this
for each of its files, except for what it puts for files that are not well named. -/
theorem wellNamed_and_confined (write : Filer (StateM σ)) (s : Session σ) {toml : String}
    (hconfig : Config.ofToml toml = .ok s.processor.config) {indexes : List DeclarationIndex}
    (hindexes : ∀ index ∈ indexes, ∃ text, DeclarationIndex.ofJsonText text = .ok index)
    (root : String) (tree : FileTree) :
    let config := s.processor.config
    let files := (s.handed write indexes).map (·.1)
    (∀ file ∈ files, file.WellNamed ↔
      ∀ plan ∈ s.processor.plans indexes, ∀ c ∈ plan.contributions, c.file config = file →
        c.method.toList.all isIdentifierPart = true) ∧
    (∀ file ∈ files, file.WellNamed → ∀ (dir : DirectoryFiler) (t : FileTree),
      let later := ((onDisk FileTree.disk file).run (dir, t)).2.2
      t.Changes (later.InPackage dir.root file) later) ∧
    let d : Session (DirectoryFiler × FileTree) := { s with filing := (.ofRoot root, tree) }
    let later := (d.run (onDisk FileTree.disk) indexes).2.filing.2
    tree.Changes (fun place entry => ∃ file ∈ files, later.InPackage root file place entry ∨
      ¬file.WellNamed ∧
        FileTree.Puts (DiskPath.join root file.path) file.source true later place entry) later := by
  intro config files
  have hfiles : files = (s.processor.plans indexes).flatMap (·.files) :=
    s.map_fst_handed write indexes
  -- The names of types that are read from texts consist of identifiers.
  have hnames : ∀ index ∈ indexes, ∀ t ∈ index.types, t.name.IsDotted := fun index hindex => by
    obtain ⟨text, htext⟩ := hindexes index hindex
    exact DeclarationIndex.isDotted_of_ofJsonText htext
  rw [hfiles]
  refine ⟨fun file hfile => Processor.wellNamed_iff_of_mem_files hnames
    (Config.isDotted_of_ofToml hconfig) hfile, ?_, ?_⟩
  · intro file _ hnamed dir t later
    exact (FileTree.changes_onDisk file dir t).1.mono fun _ _ hputs => hputs.inPackage hnamed
  · intro d later
    have hlater : later = ((handOver (onDisk FileTree.disk)
        ((s.processor.plans indexes).flatMap (·.files))).run (.ofRoot root, tree)).2.2 :=
      congrArg Prod.snd (d.filing_run (onDisk FileTree.disk) indexes)
    rw [hlater]
    -- What a run puts is what it puts for one of its files.
    refine (FileTree.changes_handOver _ (.ofRoot root) tree).mono ?_
    rintro place entry ⟨⟨file, taken⟩, hresult, hputs⟩
    refine ⟨file, (List.of_mem_zip hresult).1, ?_⟩
    by_cases hnamed : file.WellNamed
    · exact Or.inl (hputs.inPackage hnamed)
    · exact Or.inr ⟨hnamed, hputs.of_written⟩

section Sample

open Json

/-- The names of two methods, of which only the first one is an identifier. The other one leads out
of the directory of the package. -/
def strayingMethods : List String :=
  ["w", "/../../W"]

/-- The index of the small application with these methods can be loaded. -/
theorem exists_ofJsonText_compactIndex :
    ∃ text, DeclarationIndex.ofJsonText text = .ok (compactIndex strayingMethods) := by
  let index := compactIndex strayingMethods
  have hparse : Document.parse index.toJson.pretty = ⟨index.toJson.toNode, false⟩ :=
    Value.parse_pretty (by decide +kernel) (by decide +kernel)
  have hread : DeclarationIndex.readTypes index.toJson.toNode = .ok index.types := by
    rfl
  refine ⟨index.toJson.pretty, ?_⟩
  rw [DeclarationIndex.ofJsonText_eq_ok_iff, Reader.run, hparse, Reader.document, hread]
  rfl

/-- In a round over that index, all files except the module of the second method are well named, and
put in the directory of their package, whatever filer and tree they are written with. -/
theorem wellNamed_and_confined_sample :
    let s := Session.start {} MemoryFiler.empty
    let files := (s.handed MemoryFiler.write [compactIndex strayingMethods]).map (·.1)
    files.map (·.path) = ["a/M_W.java", "a/M_/../../W.java", "a/M_Contributions.java"] ∧
    ∀ file ∈ files, file.path ≠ "a/M_/../../W.java" →
      file.WellNamed ∧ ∀ (dir : DirectoryFiler) (t : FileTree),
        let later := ((onDisk FileTree.disk file).run (dir, t)).2.2
        t.Changes (later.InPackage dir.root file) later := by
  have hconfig : Config.ofToml "" = .ok {} := by decide +kernel
  have hmethods : ∀ plan ∈ (Processor.ofConfig {}).plans [compactIndex strayingMethods],
      ∀ c ∈ plan.contributions, (c.file {}).path ≠ "a/M_/../../W.java" →
        c.method.toList.all isIdentifierPart = true := by
    decide +kernel
  have hnamed := wellNamed_and_confined MemoryFiler.write (Session.start {} MemoryFiler.empty)
    hconfig (List.forall_mem_singleton.mpr exists_ofJsonText_compactIndex) "out" FileTree.empty
  refine ⟨by decide +kernel, fun file hfile hpath => ?_⟩
  have hfileNamed : file.WellNamed := (hnamed.1 file hfile).mpr fun plan hplan c hc hc' =>
    hmethods plan hplan c hc (hc' ▸ hpath)
  exact ⟨hfileNamed, hnamed.2.1 file hfile hfileNamed⟩

/-- A directory filer takes all three modules, and puts the one of the second method outside of the
directory of its package. -/
theorem not_confined_sample :
    let s := Session.start {} (DirectoryFiler.ofRoot "out", FileTree.empty)
    let run := s.run (onDisk FileTree.disk) [compactIndex strayingMethods]
    Config.ofToml "" = .ok {} ∧
    (∃ text, DeclarationIndex.ofJsonText text = .ok (compactIndex strayingMethods)) ∧
    isIdentifier "M_/../../W" = false ∧
    run.1.map (·.generated) =
      [[⟨"a", "M_W", []⟩, ⟨"a", "M_/../../W", []⟩, ⟨"a", "M_Contributions", []⟩]] ∧
    run.2.filing.2.entries.map (·.1) =
      [["out"], ["out", "a"], ["out", "a", "M_W.java"], ["out", "a", "M_"], ["out", "W.java"],
        ["out", "a", "M_Contributions.java"]] :=
  ⟨by decide +kernel, exists_ofJsonText_compactIndex, by decide, by decide +kernel⟩

end Sample

end Multibinding
