import Multibinding.Session

/-!
# What a memory filer takes

Of the files that are handed over to a memory filer, it takes the first one of each name, unless it
has taken one of that name before. Under each name it holds the source of the file that it took.

* `get?_handOver`: what is held after several files;
* `files_handOver`: what is held is what was taken;
* `taken_iff`: which files are taken;
* `forall_taken_iff`: when all of them are.
-/

namespace Multibinding

open Java (SourceFile)

namespace MemoryFiler

open Processor (handOver)

/-- A file is taken unless there is one of its name. -/
theorem run_write (filer : MemoryFiler) (file : SourceFile) :
    (write file : StateM MemoryFiler _).run filer =
      if filer.contains file.name then (.error (.alreadyExists file.name), filer)
      else (.ok (), ⟨filer.files ++ [(file.name, file.source)]⟩) := by
  cases h : filer.contains file.name <;> simp [write, h] <;> rfl

/-- A file is answered by whether there is none of its name. -/
theorem toBool_write (filer : MemoryFiler) (file : SourceFile) :
    ((write file : StateM MemoryFiler _).run filer).1.toBool = !filer.contains file.name := by
  rw [run_write]
  cases filer.contains file.name <;> rfl

/-- After a file, its source is held under its name, unless another one is. -/
theorem get?_write (filer : MemoryFiler) (file : SourceFile) (name : ClassName) :
    ((write file : StateM MemoryFiler _).run filer).2.get? name =
      (filer.get? name).or (if file.name == name then some file.source else none) := by
  rw [run_write]
  by_cases h : filer.contains file.name
  · -- The file is refused, and if it has the name, another one is held under it.
    rw [if_pos h]
    by_cases hname : file.name = name
    · obtain ⟨source, hsource⟩ := Option.isSome_iff_exists.mp (hname ▸ h)
      rw [hsource]
      rfl
    · rw [beq_eq_false_iff_ne.mpr hname]
      simp
  · rw [if_neg h, Bool.beq_comm]
    refine List.lookup_append.trans ?_
    rw [List.lookup_cons, List.lookup_nil]
    cases name == file.name <;> rfl

/-- After a file, its name is taken besides those that were taken before. -/
theorem contains_write (filer : MemoryFiler) (file : SourceFile) (name : ClassName) :
    ((write file : StateM MemoryFiler _).run filer).2.contains name =
      (filer.contains name || file.name == name) := by
  rw [contains, get?_write, contains, Option.isSome_or]
  cases file.name == name <;> rfl

/-- After several files, the source of the first one of each name is held under it, unless another
one is. -/
theorem get?_handOver (files : List SourceFile) (filer : MemoryFiler) (name : ClassName) :
    ((handOver (m := StateM MemoryFiler) write files).run filer).2.get? name =
      (filer.get? name).or ((files.find? (·.name == name)).map (·.source)) := by
  induction files generalizing filer with
  | nil => simp
  | cons file rest ih =>
    rw [Processor.handOver_cons, ih, get?_write, Option.or_assoc, List.find?_cons]
    cases file.name == name <;> rfl

/-- What is held is what was held before and what is taken. -/
theorem files_handOver (files : List SourceFile) (filer : MemoryFiler) :
    ((handOver (m := StateM MemoryFiler) write files).run filer).2.files =
      filer.files ++
        ((files.zip ((handOver (m := StateM MemoryFiler) write files).run filer).1).filter
          (·.2)).map fun (file, _) => (file.name, file.source) := by
  induction files generalizing filer with
  | nil => simp
  | cons file rest ih =>
    rw [Processor.handOver_cons, ih, toBool_write, run_write, List.zip_cons_cons, List.filter_cons]
    cases filer.contains file.name <;> simp

/-- A file is taken exactly if it is the first one of its name. -/
theorem taken_iff (files : List SourceFile) (filer : MemoryFiler) (file : SourceFile) :
    (file, true) ∈ files.zip ((handOver (m := StateM MemoryFiler) write files).run filer).1 ↔
      filer.contains file.name = false ∧ files.find? (·.name == file.name) = some file := by
  induction files generalizing filer with
  | nil => simp
  | cons first rest ih =>
    rw [Processor.handOver_cons, List.zip_cons_cons, List.mem_cons, ih, toBool_write,
      contains_write, List.find?_cons]
    -- A file of the same name is refused behind the first one, so that only the first one counts.
    by_cases hname : first.name = file.name
    · rw [beq_iff_eq.mpr hname, hname, Bool.or_true, Prod.mk.injEq]
      constructor
      · rintro (⟨rfl, hfree⟩ | ⟨h, -⟩)
        · exact ⟨by simpa using hfree, rfl⟩
        · cases h
      · rintro ⟨hfree, ⟨rfl⟩⟩
        exact Or.inl ⟨rfl, by simp [hfree]⟩
    · have hne : file ≠ first := fun h => hname (congrArg SourceFile.name h).symm
      rw [beq_eq_false_iff_ne.mpr hname]
      simp [hne]

/-- All files are taken exactly if no name is used twice and none was taken before. -/
theorem forall_taken_iff (files : List SourceFile) (filer : MemoryFiler) :
    (∀ answer ∈ ((handOver (m := StateM MemoryFiler) write files).run filer).1, answer = true) ↔
      (files.map (·.name)).Nodup ∧ ∀ file ∈ files, filer.contains file.name = false := by
  induction files generalizing filer with
  | nil => simp
  | cons file rest ih =>
    rw [Processor.handOver_cons, List.forall_mem_cons, ih, toBool_write, List.map_cons,
      List.nodup_cons, List.forall_mem_cons]
    simp only [contains_write, Bool.or_eq_false_iff, beq_eq_false_iff_ne, List.mem_map]
    constructor
    · -- A later file of the name of this one would have been refused.
      rintro ⟨hfile, hnodup, hrest⟩
      refine ⟨⟨?_, hnodup⟩, by simpa using hfile, fun other h => (hrest other h).1⟩
      rintro ⟨other, hother, hname⟩
      exact (hrest other hother).2 hname.symm
    · rintro ⟨⟨hnot, hnodup⟩, hfile, hrest⟩
      refine ⟨by simpa using hfile, hnodup, fun other hother => ⟨hrest other hother, ?_⟩⟩
      exact fun hname => hnot ⟨other, hother, hname.symm⟩

end MemoryFiler

end Multibinding
