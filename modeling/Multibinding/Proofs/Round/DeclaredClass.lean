import Multibinding.Proofs.Emission.Placement
import Multibinding.Proofs.Round.FileNames
import Multibinding.Proofs.Round.InjectionModule

/-!
# Files and the classes that they declare

A filer tells files apart by the classes that they are registered under, but a directory filer puts
them where their types are named. If all files of a run declare the classes that they are registered
under, this is the same, and no file is overwritten. A module that declares the maps does not if its
name is that of a nested class, and then it can overwrite the module of a contribution.

* `FileTree.name_eq_of_place_eq`: well-named files of one place are of one class;
* `declared_classes_iff`: when all files of a run declare their classes, and what follows.
-/

namespace Multibinding

open Java (SourceFile)
open Processor (handOver)
open DirectoryFiler (onDisk)

variable {σ : Type}

/-- If well-named files that declare their classes have one place below the root of a directory
filer, they are of one class. -/
theorem FileTree.name_eq_of_place_eq {tree : FileTree} {root : String} {file other : SourceFile}
    (hfile : file.DeclaresItsClass ∧ file.WellNamed)
    (hother : other.DeclaresItsClass ∧ other.WellNamed) {place : List String}
    (hplace : tree.place (DiskPath.join root file.path) = .ok place)
    (hplace' : tree.place (DiskPath.join root other.path) = .ok place) :
    file.name = other.name := by
  obtain ⟨dir, hdir, rfl⟩ := place_join hfile.2.isAbsolute_path hfile.2.up_notMem_steps hplace
  obtain ⟨dir', hdir', heq⟩ := place_join hother.2.isAbsolute_path hother.2.up_notMem_steps hplace'
  obtain rfl : dir = dir' := Except.ok.inj (hdir.symm.trans hdir')
  exact SourceFile.name_eq_of_steps_eq hfile.2 hother.2 hfile.1 hother.1
    (List.append_cancel_left heq)

/-- A processor at work, with a filer of any kind. All files that it hands over declare the classes
that they are registered under exactly if there is no round, or no module that declares the maps is
handed over, or that module is to be a top-level class. Files that do are of one class if they have
one path, be it that the names of declarations and of the module have been read, or that the files
are well named. And if all files declare their classes and are well named, a directory filer
overwrites none of them: whatever it was handed so far, each file that it has taken is where it has
put it. -/
theorem declared_classes_iff (write : Filer (StateM σ)) (s : Session σ)
    (indexes : List DeclarationIndex) (root : String) (tree : FileTree) :
    let files := (s.handed write indexes).map (·.1)
    ((∀ file ∈ files, file.DeclaresItsClass) ↔
      indexes = [] ∨ ∀ name ∈ s.processor.injectionModule?, name.isTopLevel = true) ∧
    (∀ file ∈ files, ∀ other ∈ files, file.DeclaresItsClass → other.DeclaresItsClass →
      ((∀ index ∈ indexes, ∀ t ∈ index.types, t.name.IsDotted) ∧
          (∀ name ∈ s.processor.config.injectionModule, name.IsDotted) ∨
        file.WellNamed ∧ other.WellNamed) →
      file.path = other.path → file.name = other.name) ∧
    ((∀ file ∈ files, file.DeclaresItsClass ∧ file.WellNamed) → ∀ first, first <+: files →
      let answer := (handOver (onDisk FileTree.disk) first).run (.ofRoot root, tree)
      ∀ file, (file, true) ∈ first.zip answer.1 →
        answer.2.2.look (DiskPath.join root file.path) = .file (some file.source)) := by
  intro files
  have hfiles : files = (s.processor.plans indexes).flatMap (·.files) :=
    s.map_fst_handed write indexes
  rw [hfiles]
  refine ⟨Processor.forall_declaresItsClass_iff, ?_, ?_⟩
  · rintro file hfile other hother hclass hclass' (⟨hindexes, hmodule⟩ | ⟨hnamed, hnamed'⟩) hpath
    · exact SourceFile.name_eq_of_path_eq
        (Processor.isCapitalized_of_mem_files hindexes hmodule hfile)
        (Processor.isCapitalized_of_mem_files hindexes hmodule hother) hclass hclass' hpath
    · exact SourceFile.name_eq_of_steps_eq hnamed hnamed' hclass hclass'
        (congrArg DiskPath.steps hpath)
  · intro hall first hfirst answer file htaken
    -- It is enough that no two of the files are put in one place.
    refine FileTree.look_handOver rfl List.nodup_nil ?_ htaken
    intro one hone another hanother place hplace hplace'
    exact FileTree.name_eq_of_place_eq (hall one (hfirst.subset hone))
      (hall another (hfirst.subset hanother)) hplace hplace'

section Sample

/-- A configuration in which the module that declares the maps is a nested class, with the simple
name that the module of a contribution has. -/
def nestedMapsConfig : Config :=
  { injectionModule := some ⟨"a", "O", ["M_W"]⟩ }

/-- All files of a round over a small application that also declares the maps declare their classes,
and are well named. -/
theorem declaresItsClass_wellNamed_compactIndex {σ : Type} (write : Filer (StateM σ)) (filing : σ) :
    ∀ file ∈ ((Session.start mapsConfig filing).handed write [compactIndex ["w"]]).map (·.1),
      file.DeclaresItsClass ∧ file.WellNamed := by
  have hmodule : ∀ name ∈ mapsConfig.injectionModule, name.IsDotted := by
    have hparsed : ∀ name ∈ mapsConfig.injectionModule,
        (ClassName.parse name.canonical).toOption = some name := by
      decide +kernel
    exact fun name hname => ClassName.isDotted_of_parse
      (toOption_eq_some_iff.mp (hparsed name hname))
  have hmethods : ∀ plan ∈ (Processor.ofConfig mapsConfig).plans [compactIndex ["w"]],
      ∀ c ∈ plan.contributions, c.method.toList.all isIdentifierPart = true := by
    decide +kernel
  intro file hfile
  rw [Session.map_fst_handed] at hfile
  have htopLevel : ∀ name ∈ (Processor.ofConfig mapsConfig).injectionModule?,
      name.isTopLevel = true := by
    decide
  refine ⟨Processor.forall_declaresItsClass_iff.mpr (Or.inr htopLevel) file hfile, ?_⟩
  rw [Processor.wellNamed_iff_of_mem_files (List.forall_mem_singleton.mpr (isDotted_compactIndex _))
    hmodule hfile]
  exact fun plan hplan c hc _ => hmethods plan hplan c hc

/-- In that round, a directory filer takes all three files, and overwrites none of them. -/
theorem declared_classes_sample :
    let handed := (Session.start mapsConfig (DirectoryFiler.ofRoot "out", FileTree.empty)).handed
      (onDisk FileTree.disk) [compactIndex ["w"]]
    (handed.map (·.2)) = [true, true, true] ∧ ∀ first, first <+: handed.map (·.1) →
      let answer := (handOver (onDisk FileTree.disk) first).run (.ofRoot "out", FileTree.empty)
      ∀ file, (file, true) ∈ first.zip answer.1 →
        answer.2.2.look (DiskPath.join "out" file.path) = .file (some file.source) :=
  ⟨by decide +kernel, (declared_classes_iff (onDisk FileTree.disk) _ _ "out" FileTree.empty).2.2
    (declaresItsClass_wellNamed_compactIndex (onDisk FileTree.disk) _)⟩

/-- A round that wants the nested class. A directory filer takes all three files, but the nested
class is put where the module of the contribution is, so that only two files are there in the
end. -/
theorem declared_classes_overwritten_sample :
    let s := Session.start nestedMapsConfig (DirectoryFiler.ofRoot "out", FileTree.empty)
    let write := onDisk FileTree.disk
    ((s.handed write [compactIndex ["w"]]).map fun (file, taken) => (file.name, file.path, taken)) =
      [(⟨"a", "M_W", []⟩, "a/M_W.java", true),
        (⟨"a", "M_Contributions", []⟩, "a/M_Contributions.java", true),
        (⟨"a", "O", ["M_W"]⟩, "a/M_W.java", true)] ∧
    (s.run write [compactIndex ["w"]]).2.filing.2.files.map (·.1) =
      ["out/a/M_W.java", "out/a/M_Contributions.java"] := by
  decide +kernel

end Sample

end Multibinding
