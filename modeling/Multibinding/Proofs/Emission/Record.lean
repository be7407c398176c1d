import Multibinding.Proofs.Emission.Memory
import Multibinding.Proofs.Except

/-!
# What filers have on record

A filer records the classes that it has taken. It refuses a class as taken exactly if it has it on
record, and it puts a class on record when it takes it and at no other time, in particular not when
it fails to write it. A filer that records its classes in this way takes each class once, in any
sequence of files: `Filer.Recording.takesOnce`.

Memory filers do (`MemoryFiler.recording_write`), and so do directory filers, however often and
wherever their disk fails (`DirectoryFiler.recording_onDisk`).
-/

namespace Multibinding

open Java (SourceFile)
open Processor (handOver)

variable {σ τ : Type}

/-- A filer puts the classes that it takes on record, and refuses exactly those that are on it. -/
structure Filer.Recording (write : Filer (StateM σ)) (record : σ → List ClassName) : Prop where
  refused_iff : ∀ file s name, ((write file).run s).1 = .error (.alreadyExists name) ↔
    name = file.name ∧ file.name ∈ record s
  record_write : ∀ file s, record ((write file).run s).2 =
    if ((write file).run s).1.toBool then record s ++ [file.name] else record s

/-- Whatever files it is handed from a state on, a filer refuses a file as taken exactly if it has
taken one of the class before, and where it does not take a file, its record stays as it is. -/
structure Filer.TakesOnce (write : Filer (StateM σ)) (record : σ → List ClassName) (start : σ) :
    Prop where
  refused_iff : ∀ (earlier : List SourceFile) (file : SourceFile),
    (∃ name, ((write file).run ((handOver write earlier).run start).2).1 =
        .error (.alreadyExists name)) ↔
      ∃ other, (other, true) ∈ earlier.zip ((handOver write earlier).run start).1 ∧
        other.name = file.name
  record_of_error : ∀ (earlier : List SourceFile) (file : SourceFile) (e : EmitError),
    ((write file).run ((handOver write earlier).run start).2).1 = .error e →
      record ((write file).run ((handOver write earlier).run start).2).2 =
        record ((handOver write earlier).run start).2

/-- The names of the files that a filer has taken, given for each file whether it has. -/
def takenNames (files : List SourceFile) (taken : List Bool) : List ClassName :=
  ((files.zip taken).filter (·.2)).map (·.1.name)

namespace Filer.Recording

variable {write : Filer (StateM σ)} {record : σ → List ClassName} (h : write.Recording record)
include h

/-- What is on record after several files is what was on it before and what has been taken. -/
theorem record_handOver (files : List SourceFile) (s : σ) :
    record ((handOver write files).run s).2 =
      record s ++ takenNames files ((handOver write files).run s).1 := by
  induction files generalizing s with
  | nil => exact (List.append_nil _).symm
  | cons file rest ih =>
    rw [Processor.handOver_cons, ih, h.record_write, takenNames, takenNames, List.zip_cons_cons,
      List.filter_cons]
    cases ((write file).run s).1.toBool <;> simp

/-- No class is put on record twice. -/
theorem nodup_record_handOver (files : List SourceFile) {s : σ} (hs : (record s).Nodup) :
    (record ((handOver write files).run s).2).Nodup := by
  induction files generalizing s with
  | nil => exact hs
  | cons file rest ih =>
    rw [Processor.handOver_cons]
    refine ih ?_
    rw [h.record_write]
    cases hanswer : ((write file).run s).1 with
    | error e => exact hs
    | ok =>
      -- A file of a class that is on record would have been refused.
      have hnew : file.name ∉ record s := by
        intro hmem
        have hrefused := (h.refused_iff file s file.name).mpr ⟨rfl, hmem⟩
        rw [hanswer] at hrefused
        cases hrefused
      show (record s ++ [file.name]).Nodup
      exact List.nodup_append.mpr ⟨hs, by simp, by
        rintro name hname _ hfile rfl
        exact hnew (List.mem_singleton.mp hfile ▸ hname)⟩

/-- A file is only taken if its class is not on record. -/
theorem notMem_record_of_taken {files : List SourceFile} {s : σ} (hs : (record s).Nodup)
    {file : SourceFile} (htaken : (file, true) ∈ files.zip ((handOver write files).run s).1) :
    file.name ∉ record s := by
  have hnodup := h.nodup_record_handOver files hs
  rw [h.record_handOver] at hnodup
  have hname : file.name ∈ takenNames files ((handOver write files).run s).1 :=
    List.mem_map.mpr ⟨(file, true), List.mem_filter.mpr ⟨htaken, rfl⟩, rfl⟩
  exact fun hmem => (List.nodup_append.mp hnodup).2.2 _ hmem _ hname rfl

/-- After several files, starting with an empty record, a class is refused as taken exactly if a
file of the class has been taken before. -/
theorem refused_iff_taken {s : σ} (hs : record s = []) (earlier : List SourceFile)
    (file : SourceFile) :
    (∃ name, ((write file).run ((handOver write earlier).run s).2).1 =
        .error (.alreadyExists name)) ↔
      ∃ other, (other, true) ∈ earlier.zip ((handOver write earlier).run s).1 ∧
        other.name = file.name := by
  simp only [h.refused_iff, exists_eq_left, h.record_handOver, hs, List.nil_append, takenNames,
    List.mem_map, List.mem_filter]
  constructor
  · rintro ⟨⟨other, taken⟩, ⟨hmem, rfl⟩, hname⟩
    exact ⟨other, hmem, hname⟩
  · rintro ⟨other, hmem, hname⟩
    exact ⟨(other, true), ⟨hmem, rfl⟩, hname⟩

/-- A file that is not taken leaves the record as it is. -/
theorem record_of_error {file : SourceFile} {s : σ} {e : EmitError}
    (herror : ((write file).run s).1 = .error e) : record ((write file).run s).2 = record s := by
  rw [h.record_write, herror]
  rfl

/-- With nothing on record, the filer takes each class once. -/
theorem takesOnce {start : σ} (hstart : record start = []) : write.TakesOnce record start where
  refused_iff earlier file := h.refused_iff_taken hstart earlier file
  record_of_error _ _ _ herror := h.record_of_error herror

end Filer.Recording

namespace MemoryFiler

/-- A class is held exactly if it is one of the names. -/
theorem contains_iff (filer : MemoryFiler) (name : ClassName) :
    filer.contains name ↔ name ∈ filer.names := by
  rw [contains, get?, names, List.lookup_isSome_iff, List.mem_map]
  simp only [beq_iff_eq, eq_comm (a := name)]

/-- A memory filer records the classes that it takes. -/
theorem recording_write : Filer.Recording (σ := MemoryFiler) write names where
  refused_iff file filer name := by
    rw [run_write, ← contains_iff]
    cases filer.contains file.name <;> simp [eq_comm]
  record_write file filer := by
    rw [run_write]
    cases filer.contains file.name <;> simp [names, Except.toBool]

end MemoryFiler

namespace DirectoryFiler

/-- Unless its class is on record, a file is answered as its text is written, and its class is put
on record if that succeeds. -/
theorem run_write {m : Type → Type} [Monad m] [LawfulMonad m] (disk : Disk m) (file : SourceFile)
    (filer : DirectoryFiler) :
    (write disk file).run filer =
      if file.name ∈ filer.written then pure (.error (.alreadyExists file.name), filer)
      else do
        let answer ← writeTo disk (DiskPath.join filer.root file.path) file.source
        return (answer,
          if answer.toBool then { filer with written := filer.written ++ [file.name] }
          else filer) := by
  by_cases hmem : file.name ∈ filer.written
  · simp [write, hmem]
  · simp only [write, StateT.run_bind, StateT.run_get, pure_bind]
    rw [if_neg (by simpa using hmem), if_neg hmem]
    simp only [StateT.run_bind, StateT.run_monadLift, bind_assoc, pure_bind]
    refine bind_congr fun answer => ?_
    cases answer with
    | error e => rfl
    | ok => simp [Except.toBool]

/-- A directory filer and the disk that it writes to as one filer. -/
def onDisk (disk : Disk (StateM τ)) : Filer (StateM (DirectoryFiler × τ)) := fun file (filer, t) =>
  let ((answer, filer), t) := ((write disk file).run filer).run t
  (answer, filer, t)

/-- What a directory filer does with a file, on a disk that is in some state. -/
theorem run_onDisk (disk : Disk (StateM τ)) (file : SourceFile) (filer : DirectoryFiler) (t : τ) :
    (onDisk disk file).run (filer, t) =
      if file.name ∈ filer.written then (.error (.alreadyExists file.name), filer, t)
      else
        let written := (writeTo disk (DiskPath.join filer.root file.path) file.source).run t
        (written.1,
          if written.1.toBool then { filer with written := filer.written ++ [file.name] }
          else filer,
          written.2) := by
  have hrun : (onDisk disk file).run (filer, t) =
      let result := ((write disk file).run filer).run t
      (result.1.1, result.1.2, result.2) := rfl
  rw [hrun, run_write]
  by_cases hmem : file.name ∈ filer.written
  · simp only [hmem, if_true]
    rfl
  · simp only [hmem, if_false]
    generalize writeTo disk (DiskPath.join filer.root file.path) file.source = act
    rfl

/-- A text is written once the directories that it stands in are made. -/
theorem run_writeTo (disk : Disk (StateM τ)) (path source : String) (t : τ) :
    (writeTo disk path source).run t =
      let made := (disk.ensureDirectories (DiskPath.parent path)).run t
      match made.1 with
      | .error e => (.error (.io (DiskPath.parent path) e), made.2)
      | .ok () =>
        let written := (disk.writeFile path source).run made.2
        (written.1.mapError (.io path), written.2) := by
  rw [writeTo, run_bind_eq]
  rcases (disk.ensureDirectories (DiskPath.parent path)).run t with ⟨made, t⟩
  cases made with
  | error e => rfl
  | ok =>
    dsimp only
    rw [run_bind_eq]
    rcases (disk.writeFile path source).run t with ⟨written, t⟩
    cases written <;> rfl

/-- Where a text cannot be written, the disk is to blame. -/
theorem run_writeTo_ne_alreadyExists (disk : Disk (StateM τ)) (path source : String) (t : τ)
    (name : ClassName) : ((writeTo disk path source).run t).1 ≠ .error (.alreadyExists name) := by
  rw [run_writeTo]
  rcases (disk.ensureDirectories (DiskPath.parent path)).run t with ⟨made, t⟩
  cases made with
  | error e => simp
  | ok =>
    dsimp only
    cases ((disk.writeFile path source).run t).1 <;> exact nofun

/-- A directory filer records the classes that it takes, whatever its disk does. -/
theorem recording_onDisk (disk : Disk (StateM τ)) :
    (onDisk disk).Recording (·.1.written) where
  refused_iff := by
    rintro file ⟨filer, t⟩ name
    rw [run_onDisk]
    by_cases hmem : file.name ∈ filer.written
    · simp [hmem, eq_comm]
    · simp only [hmem, if_false, and_false, iff_false]
      exact run_writeTo_ne_alreadyExists disk _ _ t name
  record_write := by
    rintro file ⟨filer, t⟩
    rw [run_onDisk]
    by_cases hmem : file.name ∈ filer.written
    · simp [hmem, Except.toBool]
    · simp only [hmem, if_false]
      rcases (writeTo disk (DiskPath.join filer.root file.path) file.source).run t with ⟨answer, t⟩
      cases answer <;> simp [Except.toBool]

end DirectoryFiler

end Multibinding
