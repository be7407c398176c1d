import Multibinding.Proofs.CommandLine.Loading
import Multibinding.Proofs.CommandLine.Lockstep
import Multibinding.Proofs.Emission.Growth
import Multibinding.Proofs.Java.Opening
import Multibinding.Proofs.Round.Plan

/-!
# Dry runs

A dry run keeps the generated files in memory. Unless the disk fails to take a file, it comes to the
same as the run that writes them: both take the same files in each round, and no index changes
between the rounds, since a generated file is none.

* `isNoIndex_of_mem_files`: the source of a generated file is no index;
* `grows_runRounds`: what a run does to the files on the disk;
* `dryRun_eq`: a dry run prints the same, and ends with the same exit code.
-/

namespace Multibinding

open Java (SourceFile)
open Json (Document Token)
open Processor (handOver)

/-- Where the first token of a text is a fault, the document is a fault. -/
theorem Json.Document.root_parse_of_opens {s : String} (h : Java.Opens s) :
    (Document.parse s).root = .broken .malformed := by
  have hfinished (d : Document) (tokens : List Token) :
      tokens.foldl Document.step (.finished d) = .finished d := by
    induction tokens with
    | nil => rfl
    | cons token rest ih => exact ih
  obtain ⟨c, rest, hs, hc⟩ := h
  have hstep : Scanner.step .between c = Scanner.stray := by
    rcases hc with rfl | rfl | rfl <;> rfl
  rw [parse, tokens, hs, Scanner.scan, hstep, ofTokens]
  dsimp only [Scanner.stray]
  rw [List.singleton_append, List.foldl_cons]
  show (finish ((Scanner.scan .stopped rest).foldl step
    (.finished ⟨.broken .malformed, false⟩))).root = _
  rw [hfinished]
  rfl

/-- A text that starts like a comment, a package or an annotation is no index. -/
theorem isNoIndex_of_opens {s : String} (h : Java.Opens s) : IsNoIndex s := by
  intro index hload
  rw [DeclarationIndex.ofJsonText, Json.Reader.run, Json.Reader.document,
    DeclarationIndex.readTypes, Json.Document.root_parse_of_opens h] at hload
  cases hload

/-- The type of a generated file is annotated. -/
theorem annotations_of_mem_files {p : Processor} {index : DeclarationIndex} {file : SourceFile}
    (h : file ∈ (p.plan index).files) : file.type.annotations ≠ [] := by
  rw [p.files_plan, List.mem_append, List.mem_append, List.mem_map, List.mem_map, List.mem_map] at h
  rcases h with (⟨c, -, rfl⟩ | ⟨a, -, rfl⟩) | ⟨name, -, rfl⟩ <;> exact List.cons_ne_nil _ _

/-- So the source of a generated file is no index. -/
theorem isNoIndex_of_mem_files {p : Processor} {index : DeclarationIndex} {file : SourceFile}
    (h : file ∈ (p.plan index).files) : IsNoIndex file.source :=
  isNoIndex_of_opens (SourceFile.opens_source (annotations_of_mem_files h))

namespace FileTree

/-- A directory filer that takes files which are no indexes makes the tree grow. -/
theorem grows_handOver {files : List SourceFile} (hfiles : ∀ file ∈ files, IsNoIndex file.source)
    (dir : DirectoryFiler) (t : FileTree) :
    t.Grows (((handOver (DirectoryFiler.write disk) files).run dir).run t).2 := by
  induction files generalizing dir t with
  | nil => exact .refl t
  | cons file rest ih =>
    obtain ⟨hfile, hrest⟩ := List.forall_mem_cons.mp hfiles
    have hwrite : Growing ((DirectoryFiler.write disk file).run dir) := by
      rw [DirectoryFiler.run_write]
      split
      · exact growing_pure _
      · exact growing_bind (growing_writeTo _ hfile) fun _ => growing_pure _
    exact (hwrite t).trans (ih hrest _ _)

/-- So does a run. -/
theorem grows_runRounds (p : Processor) (paths : List String) (dir : DirectoryFiler)
    (t : FileTree) :
    t.Grows
      (((CommandLine.runRounds disk (DirectoryFiler.write disk) p paths).run dir).run t).2 := by
  induction paths generalizing p dir t with
  | nil => exact .refl t
  | cons path rest ih =>
    -- Loading an index leaves the tree as it is, and the files of a round are no indexes.
    have hload := (run_ofFile t path).1
    rw [CommandLine.run_runRounds_cons]
    generalize (DeclarationIndex.ofFile disk path).run t = loaded at hload
    obtain ⟨loaded, t'⟩ := loaded
    obtain rfl : t' = t := hload
    cases loaded with
    | error e => exact .refl t'
    | ok index =>
      exact (grows_handOver (fun file hfile => isNoIndex_of_mem_files hfile) dir t').trans
        (ih _ _ _)

end FileTree

namespace CommandLine

/-- Both runs go through the same rounds. -/
theorem runRounds_lockstep {tree t : FileTree} (hclosed : tree.Closed) (hgrows : tree.Grows t)
    {mem : MemoryFiler} {dir : DirectoryFiler} (hnames : mem.names = dir.written)
    (p : Processor) {paths : List String} (unwritten : Bool)
    (hpaths : ∀ path ∈ paths,
      (∃ place, tree.place path = .ok place) ∨ ".." ∉ DiskPath.steps path)
    (hkept : ∀ path ∈ paths, ∀ text, tree.look path = .file text →
      (((runRounds FileTree.disk (DirectoryFiler.write FileTree.disk) p paths).run
        dir).run t).2.look path = .file text)
    (hwritten : (((runRounds FileTree.disk (DirectoryFiler.write FileTree.disk).watched p paths).run
      (unwritten, dir)).run t).1.2.1 = false) :
    (((runRounds FileTree.disk MemoryFiler.write p paths).run mem : StateM FileTree _).run
        tree).1.1 =
      (((runRounds FileTree.disk (DirectoryFiler.write FileTree.disk) p paths).run
        dir).run t).1.1 := by
  induction paths generalizing p mem dir unwritten t with
  | nil => rfl
  | cons path rest ih =>
    obtain ⟨hpath, hrest⟩ := List.forall_mem_cons.mp hpaths
    obtain ⟨hkeptPath, hkeptRest⟩ := List.forall_mem_cons.mp hkept
    -- What is loaded has not changed since the run began.
    have hindex := FileTree.index?_of_grows hclosed hgrows
      (FileTree.grows_runRounds p (path :: rest) dir t) hpath hkeptPath
    have hloadDry := FileTree.run_ofFile tree path
    have hloadReal := FileTree.run_ofFile t path
    rw [← hloadDry.2, ← hloadReal.2] at hindex
    rw [run_runRounds_cons] at hwritten hkeptRest ⊢
    rw [run_runRounds_cons]
    generalize (DeclarationIndex.ofFile FileTree.disk path).run tree = dry at *
    generalize (DeclarationIndex.ofFile FileTree.disk path).run t = real at *
    obtain ⟨loadedDry, treeDry⟩ := dry
    obtain ⟨loadedReal, treeReal⟩ := real
    obtain rfl : treeDry = tree := hloadDry.1
    obtain rfl : treeReal = t := hloadReal.1
    cases loadedReal with
    | error e =>
      cases loadedDry with
      | error e' => rfl
      | ok index => cases hindex
    | ok index =>
      cases loadedDry with
      | error e' => cases hindex
      | ok index' =>
        obtain rfl : index = index' := Option.some.inj hindex
        dsimp only at hwritten hkeptRest ⊢
        -- Nothing is noted in this round, since it would still be noted in the end.
        obtain ⟨noted, -, hhanded⟩ := Processor.run_handOver_watched
          (DirectoryFiler.write FileTree.disk) (p.plan index).files unwritten dir treeReal
        obtain ⟨noted', hnoted', hlater⟩ := run_runRounds_watched FileTree.disk
          (DirectoryFiler.write FileTree.disk) (p.after (p.plan index)) rest noted
          (((handOver (DirectoryFiler.write FileTree.disk) (p.plan index).files).run
            dir).run treeReal).1.2
          (((handOver (DirectoryFiler.write FileTree.disk) (p.plan index).files).run
            dir).run treeReal).2
        rw [hhanded] at hwritten
        have hround : noted = false := by
          rw [hlater] at hwritten
          exact Bool.eq_false_iff.mpr fun h => by cases (hnoted' h).symm.trans hwritten
        obtain ⟨hanswers, hnames', htree⟩ := handOver_lockstep FileTree.disk hnames
          (p.plan index).files unwritten treeDry treeReal (by rw [hhanded]; exact hround)
        have hlater := ih (hgrows.trans (FileTree.grows_handOver
            (fun file hfile => isNoIndex_of_mem_files hfile) dir treeReal)) hnames'
          (p.after (p.plan index)) noted hrest hkeptRest hwritten
        rw [hanswers, htree, hlater]

/-- Whether there is a file that cannot be written in a run that is no dry one. -/
def writeFails {m : Type → Type} [Monad m] (disk : Disk m) (environment : List (String × String))
    (a : Arguments) : m Bool := do
  match ← Config.load disk environment a.config with
  | .error _ => return false
  | .ok config =>
    if a.printConfig then return false
    else
      let root := (settled a config).outputDir.getD defaultOutputDir
      (·.2.1) <$> (runRounds disk (DirectoryFiler.write disk).watched
        (.ofConfig (settled a config)) a.indexes).run (false, .ofRoot root)

section Loaded

variable (environment : List (String × String)) (a : Arguments) (tree : FileTree)

/-- What a run does once its configuration is loaded. -/
theorem run_run :
    (run FileTree.disk environment a).run tree =
      match ((Config.load FileTree.disk environment a.config).run tree).1 with
      | .error _ => ({ exitCode := 2, output := "" }, tree)
      | .ok config =>
        let config := settled a config
        if a.printConfig then ({ exitCode := 0, output := config.toToml ++ "\n" }, tree)
        else if a.dryRun then
          let rounds := ((runRounds FileTree.disk MemoryFiler.write (.ofConfig config)
            a.indexes).run .empty : StateM FileTree _).run tree
          ({ exitCode := rounds.1.1.exitCode, output := rounds.1.1.output }, rounds.2)
        else
          let rounds := ((runRounds FileTree.disk (DirectoryFiler.write FileTree.disk)
            (.ofConfig config) a.indexes).run
              (.ofRoot (config.outputDir.getD defaultOutputDir))).run tree
          ({ exitCode := rounds.1.1.exitCode, output := rounds.1.1.output }, rounds.2) :=
  run_run_of_steady FileTree.steady_disk environment a tree

/-- Whether a file cannot be written once the configuration is loaded. -/
theorem run_writeFails {config : Config}
    (hloaded : ((Config.load FileTree.disk environment a.config).run tree).1 = .ok config)
    (hprint : a.printConfig = false) :
    ((writeFails FileTree.disk environment a).run tree).1 =
      (((runRounds FileTree.disk (DirectoryFiler.write FileTree.disk).watched
        (.ofConfig (settled a config)) a.indexes).run
          (false, .ofRoot ((settled a config).outputDir.getD defaultOutputDir))).run
            tree).1.2.1 := by
  rw [writeFails, run_load_bind_of_steady FileTree.steady_disk, hloaded, hprint]
  rfl

end Loaded

end CommandLine

open CommandLine

/-- A dry run prints what the run prints that writes the files, and ends with the same exit code, if
the latter can write all of its files, overwrites no index with them, and does not need their
directories to find an index that lies outside of them. -/
theorem dryRun_eq {tree : FileTree} (hclosed : tree.Closed)
    (environment : List (String × String)) (a : Arguments)
    (hpaths : ∀ path ∈ a.indexes,
      (∃ place, tree.place path = .ok place) ∨ ".." ∉ DiskPath.steps path)
    (hwritten : ((writeFails FileTree.disk environment a).run tree).1 = false)
    (hkept : ∀ path ∈ a.indexes, ∀ text, tree.look path = .file text →
      ((run FileTree.disk environment { a with dryRun := false }).run tree).2.look path =
        .file text) :
    ((run FileTree.disk environment { a with dryRun := true }).run tree).1 =
      ((run FileTree.disk environment { a with dryRun := false }).run tree).1 := by
  have hdry := run_run environment { a with dryRun := true } tree
  have hreal := run_run environment { a with dryRun := false } tree
  -- Up to the rounds both runs do the same, as neither has written anything yet.
  cases hloaded : ((Config.load FileTree.disk environment a.config).run tree).1 with
  | error e =>
    rw [hloaded] at hdry hreal
    rw [hdry, hreal]
  | ok config =>
    rw [hloaded] at hdry hreal
    rw [hreal] at hkept
    rw [hdry, hreal]
    cases hprint : a.printConfig with
    | true => rfl
    | false =>
      rw [run_writeFails environment a tree hloaded hprint] at hwritten
      simp only [hprint] at hkept ⊢
      have hnames : MemoryFiler.empty.names = [] := rfl
      have hrounds := runRounds_lockstep hclosed (.refl tree) hnames
        (.ofConfig (settled a config)) false hpaths hkept hwritten
      exact congrArg (fun r : RunReport => RunResult.mk r.exitCode r.output) hrounds

section Sample

/-- A tree with two files, which hold an index without types each. -/
def twoIndexes : FileTree :=
  ⟨[(["first.json"], .file (some "\x7b\x7d")), (["second.json"], .file (some "\x7b\x7d"))]⟩

/-- A run over the first of them and what is found at another path. -/
def overFirstAnd (path : String) : Arguments :=
  { indexes := ["first.json", path] }

/-- An environment in which the first round generates the module that declares the maps. -/
def mapsEnvironment : List (String × String) :=
  [("CONTRIBUTOR_INJECTION_MODULE", "com.app.Maps")]

theorem closed_twoIndexes : twoIndexes.Closed := by
  intro place step h
  cases place with
  | nil => rfl
  | cons outer rest =>
    refine absurd ?_ (h .notFound)
    have hne (name : String) : (outer :: (rest ++ [step]) == [name]) = false := by
      rw [beq_eq_false_iff_ne]
      simp
    rw [List.cons_append, FileTree.entryAt_of_ne_nil (List.cons_ne_nil _ _), twoIndexes,
      List.lookup_cons, hne, List.lookup_cons, hne]
    rfl

/-- Both runs over the two files generate the module. -/
theorem dryRun_eq_sample :
    ((run FileTree.disk mapsEnvironment
        { overFirstAnd "second.json" with dryRun := true }).run twoIndexes).1 =
      ((run FileTree.disk mapsEnvironment
        { overFirstAnd "second.json" with dryRun := false }).run twoIndexes).1 ∧
    ((run FileTree.disk mapsEnvironment
        { overFirstAnd "second.json" with dryRun := false }).run twoIndexes).1 =
      { exitCode := 0, output := "com.app.Maps\n" } := by
  refine ⟨dryRun_eq closed_twoIndexes mapsEnvironment (overFirstAnd "second.json") ?_
    (by decide +kernel) ?_, by decide +kernel⟩
  · intro path hpath
    exact Or.inr (by revert path; decide +kernel)
  · have hkept : ∀ path ∈ (overFirstAnd "second.json").indexes,
        ((run FileTree.disk mapsEnvironment { overFirstAnd "second.json" with
          dryRun := false }).run twoIndexes).2.look path = twoIndexes.look path := by
      decide +kernel
    exact fun path hpath text htext => (hkept path hpath).trans htext

/-- A run that finds the second file through the directory that it has made itself. The dry run does
not make it, and ends with an index that cannot be loaded. -/
theorem dryRun_ne_sample :
    let a := overFirstAnd "generated/../second.json"
    let dry := (run FileTree.disk mapsEnvironment { a with dryRun := true }).run twoIndexes
    let real := (run FileTree.disk mapsEnvironment { a with dryRun := false }).run twoIndexes
    ((writeFails FileTree.disk mapsEnvironment a).run twoIndexes).1 = false ∧
    real.2.look "first.json" = twoIndexes.look "first.json" ∧
    real.2.look "second.json" = twoIndexes.look "second.json" ∧
    real.1 = { exitCode := 0, output := "com.app.Maps\n" } ∧
    dry.1 = { exitCode := 2, output := "com.app.Maps\n" } := by
  decide +kernel

end Sample

end Multibinding
