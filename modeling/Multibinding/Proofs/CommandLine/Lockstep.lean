import Multibinding.CommandLine.Run
import Multibinding.Proofs.Emission.Record

/-!
# Runs with a filer in memory and one on a disk

As long as the disk takes every file, a directory filer answers every file as a memory filer that
has taken the same classes. The only answers of its own are those to files that cannot be written,
which `Filer.watched` notes.

* `run_runRounds_cons`: what a run does, round by round;
* `handOver_lockstep`: both filers take the same files;
* `run_runRounds_watched`: noting that a file cannot be written changes nothing else.
-/

namespace Multibinding

open Java (SourceFile)
open Processor (handOver)

variable {σ τ : Type}

/-- A filer that also notes whether there was a file that it could not write. -/
def Filer.watched {m : Type → Type} [Monad m] (write : Filer (StateT σ m)) :
    Filer (StateT (Bool × σ) m) := fun file => do
  let (unwritten, s) ← get
  let (answer, s) ← monadLift ((write file).run s)
  set (unwritten || answer matches .error (.io ..), s)
  return answer

/-- Its answers are those of the filer. -/
theorem Filer.run_watched (write : Filer (StateT σ (StateM τ))) (file : SourceFile)
    (unwritten : Bool) (s : σ) (t : τ) :
    ((write.watched file).run (unwritten, s)).run t =
      let result := ((write file).run s).run t
      ((result.1.1, unwritten || result.1.1 matches .error (.io ..), result.1.2), result.2) := rfl

namespace Processor

variable (write : Filer (StateT σ (StateM τ)))

/-- The first file is answered first, and the others in the state that this leaves. -/
theorem run_handOver_cons (file : SourceFile) (rest : List SourceFile) (s : σ) (t : τ) :
    ((handOver write (file :: rest)).run s).run t =
      let first := ((write file).run s).run t
      let later := ((handOver write rest).run first.1.2).run first.2
      ((first.1.1.toBool :: later.1.1, later.1.2), later.2) := rfl

/-- Noting what cannot be written changes neither the answers nor the state. What is noted stays
noted. -/
theorem run_handOver_watched (files : List SourceFile) (unwritten : Bool) (s : σ) (t : τ) :
    ∃ noted : Bool, (unwritten → noted) ∧
      ((handOver write.watched files).run (unwritten, s)).run t =
        let result := ((handOver write files).run s).run t
        ((result.1.1, noted, result.1.2), result.2) := by
  induction files generalizing unwritten s t with
  | nil => exact ⟨unwritten, id, rfl⟩
  | cons file rest ih =>
    have hfirst := write.run_watched file unwritten s t
    obtain ⟨noted, hnoted, hrest⟩ := ih (unwritten ||
      (((write file).run s).run t).1.1 matches .error (.io ..)) (((write file).run s).run t).1.2
      (((write file).run s).run t).2
    refine ⟨noted, fun h => hnoted (by rw [h, Bool.true_or]), ?_⟩
    rw [run_handOver_cons, hfirst]
    dsimp only
    rw [hrest, run_handOver_cons]

end Processor

namespace CommandLine

variable (disk : Disk (StateM τ)) (write : Filer (StateT σ (StateM τ)))

/-- A run ends with an index that cannot be loaded, or goes on behind the round for the index. -/
theorem run_runRounds_cons (p : Processor) (path : String) (rest : List String) (s : σ) (t : τ) :
    ((runRounds disk write p (path :: rest)).run s).run t =
      let loaded := (DeclarationIndex.ofFile disk path).run t
      match loaded.1 with
      | .error _ => (({ failed := true }, s), loaded.2)
      | .ok index =>
        let plan := p.plan index
        let handed := ((handOver write plan.files).run s).run loaded.2
        let later := ((runRounds disk write (p.after plan) rest).run handed.1.2).run handed.2
        (({ later.1.1 with
            generated := takenNames plan.files handed.1.1 ++ later.1.1.generated
            errors := (Diagnostic.errors plan.diagnostics).length + later.1.1.errors },
          later.1.2), later.2) := by
  have hrun (act : StateM τ (Except IndexFileError DeclarationIndex))
      (next : Except IndexFileError DeclarationIndex → StateT σ (StateM τ) RunReport) :
      (((monadLift act : StateT σ (StateM τ) _) >>= next).run s).run t =
        ((next (act.run t).1).run s).run (act.run t).2 := rfl
  rw [runRounds, hrun]
  rcases (DeclarationIndex.ofFile disk path).run t with ⟨loaded, t⟩
  cases loaded <;> rfl

/-- Noting what cannot be written changes neither what a run comes to nor the state. -/
theorem run_runRounds_watched (p : Processor) (paths : List String) (unwritten : Bool) (s : σ)
    (t : τ) :
    ∃ noted : Bool, (unwritten → noted) ∧
      ((runRounds disk write.watched p paths).run (unwritten, s)).run t =
        let result := ((runRounds disk write p paths).run s).run t
        ((result.1.1, noted, result.1.2), result.2) := by
  induction paths generalizing p unwritten s t with
  | nil => exact ⟨unwritten, id, rfl⟩
  | cons path rest ih =>
    rw [run_runRounds_cons, run_runRounds_cons]
    rcases (DeclarationIndex.ofFile disk path).run t with ⟨loaded, t⟩
    cases loaded with
    | error e => exact ⟨unwritten, id, rfl⟩
    | ok index =>
      dsimp only
      obtain ⟨noted, hnoted, hhanded⟩ :=
        Processor.run_handOver_watched write (p.plan index).files unwritten s t
      rw [hhanded]
      obtain ⟨noted', hnoted', hlater⟩ := ih (p.after (p.plan index)) noted
        (((handOver write (p.plan index).files).run s).run t).1.2
        (((handOver write (p.plan index).files).run s).run t).2
      dsimp only
      rw [hlater]
      exact ⟨noted', hnoted' ∘ hnoted, rfl⟩

end CommandLine

section Lockstep

variable (disk : Disk (StateM τ)) {mem : MemoryFiler} {dir : DirectoryFiler}
  (hnames : mem.names = dir.written)
include hnames

/-- If both filers have taken the same classes and the disk does not fail, a memory filer takes a
file exactly if a directory filer does. Then both have taken the same classes again. -/
theorem write_lockstep (file : SourceFile) (t₀ t : τ)
    (hwritten : ∀ path e,
      (((DirectoryFiler.write disk file).run dir).run t).1.1 ≠ .error (.io path e)) :
    let dry := ((MemoryFiler.write file).run mem : StateM τ _).run t₀
    let real := ((DirectoryFiler.write disk file).run dir).run t
    dry.1.1 = real.1.1 ∧ dry.1.2.names = real.1.2.written ∧ dry.2 = t₀ := by
  have hdry : ((MemoryFiler.write file).run mem : StateM τ _).run t₀ =
      if mem.contains file.name then ((.error (.alreadyExists file.name), mem), t₀)
      else ((.ok (), ⟨mem.files ++ [(file.name, file.source)]⟩), t₀) := by
    cases h : mem.contains file.name <;> simp [MemoryFiler.write, h] <;> rfl
  have hcontains : mem.contains file.name ↔ file.name ∈ dir.written := by
    rw [mem.contains_iff, hnames]
  rw [DirectoryFiler.run_write] at hwritten ⊢
  rw [hdry]
  by_cases hmem : file.name ∈ dir.written
  · simp only [hcontains, hmem, if_true]
    exact ⟨rfl, hnames, trivial⟩
  · simp only [hcontains, hmem, if_false] at hwritten ⊢
    have hanswer := DirectoryFiler.run_writeTo_ne_alreadyExists disk
      (DiskPath.join dir.root file.path) file.source t
    rw [run_bind_eq] at hwritten ⊢
    generalize (DirectoryFiler.writeTo disk (DiskPath.join dir.root file.path) file.source).run t =
      result at hwritten hanswer ⊢
    obtain ⟨answer, t⟩ := result
    -- The answers that a memory filer does not give are those of a disk that fails.
    rcases answer with (name | ⟨path, e⟩) | ⟨⟩
    · exact absurd rfl (hanswer name)
    · exact absurd rfl (hwritten path e)
    · refine ⟨rfl, ?_, trivial⟩
      show (mem.files ++ [(file.name, file.source)]).map (·.1) = dir.written ++ [file.name]
      rw [List.map_append, ← hnames]
      rfl

/-- So it is with several files. -/
theorem handOver_lockstep (files : List SourceFile) (unwritten : Bool) (t₀ t : τ)
    (hwritten : (((handOver (DirectoryFiler.write disk).watched files).run
      (unwritten, dir)).run t).1.2.1 = false) :
    let dry := ((handOver MemoryFiler.write files).run mem : StateM τ _).run t₀
    let real := ((handOver (DirectoryFiler.write disk) files).run dir).run t
    dry.1.1 = real.1.1 ∧ dry.1.2.names = real.1.2.written ∧ dry.2 = t₀ := by
  induction files generalizing mem dir unwritten t with
  | nil => exact ⟨rfl, hnames, rfl⟩
  | cons file rest ih =>
    rw [Processor.run_handOver_cons, Filer.run_watched] at hwritten
    dsimp only at hwritten
    -- What is noted at the first file would still be noted in the end.
    have hfirst : ∀ path e,
        (((DirectoryFiler.write disk file).run dir).run t).1.1 ≠ .error (.io path e) := by
      intro path e herror
      rw [herror] at hwritten
      obtain ⟨noted, hnoted, hrest⟩ := Processor.run_handOver_watched (DirectoryFiler.write disk)
        rest (unwritten || true) (((DirectoryFiler.write disk file).run dir).run t).1.2
        (((DirectoryFiler.write disk file).run dir).run t).2
      rw [hrest] at hwritten
      cases (hnoted (Bool.or_true _)).symm.trans hwritten
    obtain ⟨hanswer, hnames', htree⟩ := write_lockstep disk hnames file t₀ t hfirst
    obtain ⟨hanswers, hnames'', htree'⟩ := ih hnames' _ _ hwritten
    rw [Processor.run_handOver_cons, Processor.run_handOver_cons]
    dsimp only
    rw [htree, hanswer]
    exact ⟨congrArg _ hanswers, hnames'', htree'⟩

end Lockstep

end Multibinding
