import Multibinding.Proofs.Emission.Changes
import Multibinding.Proofs.Emission.Path
import Multibinding.Proofs.Emission.Record

/-!
# Where a directory filer puts files

A directory filer makes the directories on the way of a path, and puts the source of a file where
the path leads. Whether or not it succeeds, it touches nothing else, so that what stands elsewhere
stays.

* `FileTree.place_join`: where a path leads that is below another one;
* `FileTree.changes_writeTo`: writing one text;
* `FileTree.changes_handOver`: handing over several files;
* `FileTree.look_handOver`: when a file that was taken stays what it is.
-/

namespace Multibinding

open Java (SourceFile)
open Processor (handOver)
open DirectoryFiler (onDisk writeTo)

namespace FileTree

variable {tree later : FileTree}

/-- What writing a text to a path may put into a tree: directories on the way, and the text where
the path leads, if it has been written. -/
def Puts (path text : String) (written : Bool) (tree : FileTree) (place : List String) :
    DiskEntry → Prop
  | .absent _ => False
  | .directory => tree.OnWay (DiskPath.steps path).dropLast place
  | .file content => written = true ∧ tree.place path = .ok place ∧ content = some text

/-- Places stay on the way of steps. -/
theorem OnWay.of_changes {allowed : List String → DiskEntry → Prop} {steps place : List String}
    (h : tree.OnWay steps place) (hchanges : Changes allowed tree later) :
    later.OnWay steps place := by
  obtain ⟨first, hfirst, hfollow⟩ := h
  exact ⟨first, hfirst, hchanges.follow_eq_ok hfollow⟩

/-- On a way of two parts, the places on the second part lie below where the first part leads. -/
theorem OnWay.of_append {first rest place : List String} (hforth : ".." ∉ rest)
    (h : tree.OnWay (first ++ rest) place) :
    tree.OnWay first place ∨
      ∃ dir outer, tree.follow [] first = .ok dir ∧ outer <+: rest ∧ place = dir ++ outer := by
  obtain ⟨steps, hsteps, hfollow⟩ := h
  rcases List.prefix_or_prefix_of_prefix hsteps (List.prefix_append first rest) with
    h | ⟨outer, rfl⟩
  · exact Or.inl ⟨steps, h, hfollow⟩
  · have houter := (List.prefix_append_right_inj first).mp hsteps
    rw [follow_append] at hfollow
    obtain ⟨dir, hdir, hfollow⟩ := bind_eq_ok_iff.mp hfollow
    exact Or.inr ⟨dir, outer, hdir, houter, eq_of_follow (fun hmem => hforth (houter.subset hmem))
      hfollow⟩

/-- A path below another one leads below where that leads, if it does not lead back. -/
theorem place_join {base path : String} (hrelative : DiskPath.isAbsolute path = false)
    (hforth : ".." ∉ DiskPath.steps path) {place : List String}
    (h : tree.place (DiskPath.join base path) = .ok place) :
    ∃ dir, tree.place base = .ok dir ∧ place = dir ++ DiskPath.steps path := by
  rw [FileTree.place, DiskPath.steps_join base hrelative, follow_append] at h
  obtain ⟨dir, hdir, h⟩ := bind_eq_ok_iff.mp h
  exact ⟨dir, hdir, eq_of_follow hforth h⟩

/-- What may be put into a tree is still what may be put into it later. -/
theorem Puts.of_changes {allowed : List String → DiskEntry → Prop} {path text : String}
    {written : Bool} {place : List String} {entry : DiskEntry}
    (h : Puts path text written tree place entry) (hchanges : Changes allowed tree later) :
    Puts path text written later place entry := by
  cases entry with
  | absent e => exact h
  | directory => exact OnWay.of_changes h hchanges
  | file content => exact ⟨h.1, hchanges.place_eq_ok h.2.1, h.2.2⟩

/-- No more may be put if a text has not been written. -/
theorem Puts.of_written {path text : String} {written : Bool} {place : List String}
    {entry : DiskEntry} (h : Puts path text written tree place entry) :
    Puts path text true tree place entry := by
  cases entry with
  | absent e => exact h
  | directory => exact h
  | file content => exact ⟨rfl, h.2⟩

/-- The directories on the way of a path are made. -/
theorem changes_ensureDirectories (path : String) (tree : FileTree) :
    let made := ((disk.ensureDirectories path).run tree).2
    Changes (fun place entry => entry = .directory ∧ made.OnWay (DiskPath.steps path) place)
      tree made := by
  let allowed (t : FileTree) (place : List String) (entry : DiskEntry) : Prop :=
    entry = .directory ∧ t.OnWay (DiskPath.steps path) place
  have hstable : Stable allowed := fun hchanges _ _ h => ⟨h.1, h.2.of_changes hchanges⟩
  refine confined_ensureSteps hstable _ ?_ tree
  intro outer houter t place hplace
  -- Each directory that is made is the end of a first part of the path.
  have hfirst : outer.reverse <+: DiskPath.steps path := by
    have hreverse := List.reverse_prefix.mpr houter
    rwa [List.reverse_reverse] at hreverse
  rw [FileTree.place, DiskPath.steps_ofSteps _ fun step hstep =>
    DiskPath.isStep_of_mem_steps (hfirst.subset hstep)] at hplace
  exact ⟨rfl, outer.reverse, hfirst, hplace⟩

/-- A text that is written is put where the path leads. -/
theorem changes_writeFile {path text : String} (h : tree.writeFile path text = .ok later) :
    Changes (Puts path text true later) tree later ∧ later.look path = .file (some text) := by
  obtain ⟨place, hplace, h⟩ := bind_eq_ok_iff.mp h
  split at h
  · cases h
  · rename_i hentry
    cases h
    have hne : place ≠ [] := by
      rintro rfl
      exact hentry rfl
    have hput : Changes (fun _ _ => True) tree (tree.put place (.file (some text))) :=
      .put hne (.written hentry trivial)
    have hlater := hput.place_eq_ok hplace
    refine ⟨.put hne (.written hentry ⟨rfl, hlater, rfl⟩), ?_⟩
    rw [look, hlater]
    exact (entryAt_put hne _ _).trans (if_pos rfl)

/-- Writing a text to a path makes directories on its way and puts the text where it leads, and it
does nothing else. If it succeeds, the text is there. -/
theorem changes_writeTo (path text : String) (tree : FileTree) :
    let written := (writeTo disk path text).run tree
    Changes (Puts path text written.1.toBool written.2) tree written.2 ∧
      (written.1.toBool = true → written.2.look path = .file (some text)) := by
  have hmade := changes_ensureDirectories (DiskPath.parent path) tree
  rw [DiskPath.steps_parent] at hmade
  rw [DirectoryFiler.run_writeTo]
  generalize (disk.ensureDirectories (DiskPath.parent path)).run tree = result at hmade ⊢
  obtain ⟨made, later⟩ := result
  -- Directories are made on the way also where the text is not written in the end.
  have hputs (written : Bool) : Changes (Puts path text written later) tree later := by
    refine Changes.mono ?_ hmade
    rintro place entry ⟨rfl, hway⟩
    exact hway
  cases made with
  | error e => exact ⟨hputs false, nofun⟩
  | ok =>
    have hrun : (disk.writeFile path text).run later = _ := run_changing _ later
    dsimp only
    rw [hrun]
    cases hwritten : later.writeFile path text with
    | error e => exact ⟨hputs false, nofun⟩
    | ok final =>
      obtain ⟨hchanges, hlook⟩ := changes_writeFile hwritten
      exact ⟨((hputs true).mono fun _ _ h => h.of_changes hchanges).trans hchanges, fun _ => hlook⟩

/-- What handing over one file does to a tree. The root of the filer stays. -/
theorem changes_onDisk (file : SourceFile) (dir : DirectoryFiler) (tree : FileTree) :
    let path := DiskPath.join dir.root file.path
    let handed := (onDisk disk file).run (dir, tree)
    Changes (Puts path file.source handed.1.toBool handed.2.2) tree handed.2.2 ∧
      (handed.1.toBool = true → handed.2.2.look path = .file (some file.source)) ∧
      handed.2.1.root = dir.root := by
  rw [DirectoryFiler.run_onDisk]
  by_cases hwritten : file.name ∈ dir.written
  · rw [if_pos hwritten]
    exact ⟨.refl tree, nofun, rfl⟩
  · rw [if_neg hwritten]
    have hwriteTo := changes_writeTo (DiskPath.join dir.root file.path) file.source tree
    generalize (writeTo disk (DiskPath.join dir.root file.path) file.source).run tree = written
      at hwriteTo ⊢
    obtain ⟨answer, later⟩ := written
    refine ⟨hwriteTo.1, hwriteTo.2, ?_⟩
    cases answer <;> rfl

/-- Handing over several files makes directories on the ways of their paths, and puts the sources of
those that are taken where their paths lead. -/
theorem changes_handOver (files : List SourceFile) (dir : DirectoryFiler) (tree : FileTree) :
    let handed := (handOver (onDisk disk) files).run (dir, tree)
    Changes (fun place entry => ∃ result ∈ files.zip handed.1,
      Puts (DiskPath.join dir.root result.1.path) result.1.source result.2 handed.2.2 place entry)
      tree handed.2.2 := by
  induction files generalizing dir tree with
  | nil => exact .refl tree
  | cons file rest ih =>
    obtain ⟨hfile, -, hroot⟩ := changes_onDisk file dir tree
    rw [Processor.handOver_cons]
    generalize (onDisk disk file).run (dir, tree) = answer at hfile hroot
    obtain ⟨answer, dir', tree'⟩ := answer
    have hrest := ih dir' tree'
    dsimp only at hfile hroot hrest ⊢
    rw [hroot] at hrest
    rw [List.zip_cons_cons]
    -- A path that leads to a place for the first file leads there also when the others are handed
    -- over.
    refine Changes.trans (Changes.mono ?_ hfile) (Changes.mono ?_ hrest)
    · exact fun place entry hputs => ⟨_, List.mem_cons_self, hputs.of_changes hrest⟩
    · rintro place entry ⟨result, hresult, hputs⟩
      exact ⟨result, List.mem_cons_of_mem _ hresult, hputs⟩

/-- If no paths of different classes lead to one place, every file that is taken is there when all
files have been handed over. -/
theorem look_handOver {files : List SourceFile} {dir : DirectoryFiler} {tree final : FileTree}
    (hfinal : ((handOver (onDisk disk) files).run (dir, tree)).2.2 = final)
    (hwritten : dir.written.Nodup)
    (hplaces : ∀ file ∈ files, ∀ other ∈ files, ∀ place,
      final.place (DiskPath.join dir.root file.path) = .ok place →
      final.place (DiskPath.join dir.root other.path) = .ok place → file.name = other.name)
    {file : SourceFile}
    (htaken : (file, true) ∈ files.zip ((handOver (onDisk disk) files).run (dir, tree)).1) :
    final.look (DiskPath.join dir.root file.path) = .file (some file.source) := by
  -- The induction is on the files, each of which leaves another filer and another tree to the
  -- others.
  induction files generalizing dir tree with
  | nil => cases htaken
  | cons first rest ih =>
    have hrecord := (DirectoryFiler.recording_onDisk disk).record_write first (dir, tree)
    have hnodup := (DirectoryFiler.recording_onDisk disk).nodup_record_handOver [first]
      (s := (dir, tree)) hwritten
    obtain ⟨-, hlook, hroot⟩ := changes_onDisk first dir tree
    rw [Processor.handOver_cons] at hfinal htaken
    rw [Processor.handOver_cons] at hnodup
    generalize (onDisk disk first).run (dir, tree) = answer at *
    obtain ⟨answer, dir', tree'⟩ := answer
    dsimp only [Processor.handOver_nil] at *
    rw [List.forall_mem_cons] at hplaces
    rcases List.mem_cons.mp htaken with hfirst | hrest
    · -- A later file at the same place would be of the same class, and so it would be refused.
      obtain ⟨rfl, hanswer⟩ := Prod.mk.inj hfirst
      have hchanges := changes_handOver rest dir' tree'
      dsimp only at hchanges
      rw [hfinal, hroot] at hchanges
      refine hchanges.look_eq_file (hlook hanswer.symm) ?_
      rintro place content hplace ⟨⟨other, taken⟩, hother, rfl, hotherPlace, -⟩
      have hname := hplaces.1 other (List.mem_cons_of_mem _ (List.of_mem_zip hother).1) place
        hplace hotherPlace
      have hnot := (DirectoryFiler.recording_onDisk disk).notMem_record_of_taken
        (s := (dir', tree')) hnodup hother
      rw [← hanswer, if_pos rfl] at hrecord
      exact hnot (hrecord ▸ hname ▸ List.mem_append_right _ (List.mem_singleton_self _))
    · have hrestPlaces := fun other hother another hanother =>
        hplaces.2 other hother another (List.mem_cons_of_mem _ hanother)
      rw [← hroot] at hrestPlaces ⊢
      exact ih hfinal hnodup hrestPlaces hrest

end FileTree

end Multibinding
