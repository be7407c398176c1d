import Mathlib.Algebra.Ring.Nat
import Multibinding.Proofs.CommandLine.Loading
import Multibinding.Proofs.CommandLine.Lockstep
import Multibinding.Proofs.Round.Accounting
import Multibinding.Proofs.Round.Filing

/-!
# Exit codes of runs

A run loads one index file after another and goes through a round for each. So the rounds of a run
are those of a session over the indexes that have been loaded, which are all of them or those before
the first one that cannot be loaded. The exit code tells which, and else whether anything has been
reported in any of the rounds.

* `run_handOver_joined`: a filer and its disk as one filer;
* `length_errors_diagnostics`: how many errors the rounds of a session report;
* `exists_runRounds_eq`: the rounds of a run are those of a session;
* `exit_status`: what a run prints, and its exit code.
-/

namespace Multibinding

open Processor (handOver)

variable {σ τ : Type}

/-- A filer together with the disk that it works on, as one filer. -/
def Filer.joined (write : Filer (StateT σ (StateM τ))) : Filer (StateM (σ × τ)) :=
  fun file (s, t) =>
    let ((answer, s), t) := ((write file).run s).run t
    (answer, s, t)

/-- It answers as the filer does, and its state is that of both. -/
theorem Processor.run_handOver_joined (write : Filer (StateT σ (StateM τ)))
    (files : List Java.SourceFile) (s : σ) (t : τ) :
    (handOver write.joined files).run (s, t) =
      let result := ((handOver write files).run s).run t
      (result.1.1, result.1.2, result.2) := by
  induction files generalizing s t with
  | nil => rfl
  | cons file rest ih =>
    have hfirst : (write.joined file).run (s, t) =
        let result := ((write file).run s).run t
        (result.1.1, result.1.2, result.2) := rfl
    rw [handOver_cons, run_handOver_cons, hfirst]
    dsimp only
    rw [ih]

/-- The types that the declarations of an index list as keys and that are none. -/
def KeyCollection.malformedKeys (config : Config) (index : DeclarationIndex) : List TypeRef :=
  malformed config index ((registries config index).flatMap (declaredTypes config index))

/-- The errors among reports that are made one after the other. -/
theorem Diagnostic.errors_append (first second : List Diagnostic) :
    errors (first ++ second) = errors first ++ errors second :=
  List.filter_append ..

namespace Processor

/-- All reports of rounds are errors: one for each listed type that is no key, and one for each
contribution that is dropped. -/
theorem length_errors_diagnostics (p : Processor) (indexes : List DeclarationIndex) :
    (Diagnostic.errors ((p.plans indexes).flatMap (·.diagnostics))).length =
      (indexes.map fun index => (KeyCollection.malformedKeys p.config index).length).sum +
        ((p.plans indexes).map (·.dropped)).sum := by
  induction indexes generalizing p with
  | nil => rfl
  | cons index rest ih =>
    have hround : Diagnostic.errors (p.plan index).diagnostics = (p.plan index).diagnostics :=
      List.filter_eq_self.mpr fun report hreport =>
        decide_eq_true (p.kind_of_mem_diagnostics_plan index hreport)
    have hcount : (p.plan index).diagnostics.length =
        (KeyCollection.malformedKeys p.config index).length + (p.plan index).dropped :=
      p.length_diagnostics_plan index
    -- The configuration stays the same from round to round.
    have hconfig : (p.after (p.plan index)).config = p.config := rfl
    have hrest := ih (p.after (p.plan index))
    rw [hconfig] at hrest
    rw [plans, List.flatMap_cons, Diagnostic.errors_append, hround, List.length_append, hrest,
      hcount, List.map_cons, List.map_cons, List.sum_cons, List.sum_cons]
    omega

end Processor

/-- The outcomes of a session tell how many contributions its plans drop. -/
theorem Session.map_dropped_run (write : Filer (StateM σ)) (s : Session σ)
    (indexes : List DeclarationIndex) :
    (s.run write indexes).1.map (·.dropped) = (s.processor.plans indexes).map (·.dropped) := by
  induction indexes generalizing s with
  | nil => rfl
  | cons index rest ih =>
    have hrest := ih (s.round write index).2
    rw [Processor.plans, List.map_cons]
    exact congrArg _ hrest

namespace CommandLine

/-- The index that can be loaded from a path. -/
def loadable? (disk : Disk (StateM τ)) (t : τ) (path : String) : Option DeclarationIndex :=
  ((DeclarationIndex.ofFile disk path).run t).1.toOption

/-- The indexes that are loaded in a session from several files. Each one is loaded from the disk
that the rounds before it leave behind, and they are all of them or those before the first one that
cannot be loaded. -/
structure LoadedInOrder (disk : Disk (StateM τ)) (write : Filer (StateM (σ × τ)))
    (s : Session (σ × τ)) (paths : List String) (loaded : List DeclarationIndex) : Prop where
  length_le : loaded.length ≤ paths.length
  loads : ∀ k (hk : k < loaded.length),
    loadable? disk (s.run write (loaded.take k)).2.filing.2 paths[k] = some loaded[k]
  fails : ∀ h : loaded.length < paths.length,
    loadable? disk (s.run write loaded).2.filing.2 paths[loaded.length] = none

namespace LoadedInOrder

variable {disk : Disk (StateM τ)} {write : Filer (StateM (σ × τ))} {s : Session (σ × τ)}
  {path : String} {paths : List String}

theorem nil : LoadedInOrder disk write s [] [] where
  length_le := Nat.le_refl 0
  loads _ hk := absurd hk (Nat.not_lt_zero _)
  fails h := absurd h (Nat.lt_irrefl 0)

/-- If the first one cannot be loaded, none is. -/
theorem stop (h : loadable? disk s.filing.2 path = none) :
    LoadedInOrder disk write s (path :: paths) [] where
  length_le := Nat.zero_le _
  loads _ hk := absurd hk (Nat.not_lt_zero _)
  fails _ := h

/-- If the first one is loaded, the others are in the session that its round leaves behind. -/
theorem cons {index : DeclarationIndex} {loaded : List DeclarationIndex}
    (h : loadable? disk s.filing.2 path = some index)
    (hrest : LoadedInOrder disk write (s.round write index).2 paths loaded) :
    LoadedInOrder disk write s (path :: paths) (index :: loaded) where
  length_le := Nat.succ_le_succ hrest.length_le
  loads k hk := by
    cases k with
    | zero => exact h
    | succ k => exact hrest.loads k (Nat.lt_of_succ_lt_succ hk)
  fails hlt := hrest.fails (Nat.lt_of_succ_lt_succ hlt)

end LoadedInOrder

/-- The rounds of a run are those of a session over the indexes that are loaded. -/
theorem exists_runRounds_eq {disk : Disk (StateM τ)} (hsteady : disk.Steady)
    (write : Filer (StateT σ (StateM τ))) (start : Session (σ × τ)) (paths : List String) :
    ∃ loaded, LoadedInOrder disk write.joined start paths loaded ∧
      (((runRounds disk write start.processor paths).run start.filing.1).run start.filing.2).1.1 =
        { generated := (start.run write.joined loaded).1.flatMap (·.generated)
          errors :=
            (Diagnostic.errors ((start.processor.plans loaded).flatMap (·.diagnostics))).length
          failed := decide (loaded.length < paths.length) } := by
  induction paths generalizing start with
  | nil => exact ⟨[], .nil, rfl⟩
  | cons path rest ih =>
    obtain ⟨p, reports, s, t⟩ := start
    have hload := run_ofFile_of_steady hsteady path t
    have hloadable : loadable? disk t path =
        ((DeclarationIndex.ofFile disk path).run t).1.toOption := rfl
    rw [run_runRounds_cons]
    generalize (DeclarationIndex.ofFile disk path).run t = result at hload hloadable ⊢
    obtain ⟨answer, t'⟩ := result
    obtain rfl : t' = t := hload
    cases answer with
    | error e =>
      refine ⟨[], .stop hloadable, ?_⟩
      dsimp only
      rw [decide_eq_true (by simp)]
      rfl
    | ok index =>
      let plan := p.plan index
      let handed := ((handOver write plan.files).run s).run t'
      let next : Session (σ × τ) :=
        ⟨p.after plan, reports ++ plan.diagnostics, (handed.1.2, handed.2)⟩
      -- The round leaves the session in the state in which the other files are loaded.
      have hround : (Session.mk p reports (s, t')).round write.joined index =
          (p.outcome plan handed.1.1, next) := by
        rw [Session.round_eq]
        dsimp only
        rw [Processor.run_handOver_joined]
      obtain ⟨loaded, hloaded, hreport⟩ := ih next
      refine ⟨index :: loaded, .cons hloadable (by rw [hround]; exact hloaded), ?_⟩
      have herrors : (Diagnostic.errors ((p.plans (index :: loaded)).flatMap
          (·.diagnostics))).length = (Diagnostic.errors plan.diagnostics).length +
            (Diagnostic.errors (((p.after plan).plans loaded).flatMap (·.diagnostics))).length := by
        rw [Processor.plans, List.flatMap_cons, Diagnostic.errors_append, List.length_append]
      have hfailed : decide ((index :: loaded).length < (path :: rest).length) =
          decide (loaded.length < rest.length) := by
        simp
      dsimp only at hreport ⊢
      rw [hreport, Session.run, hround, herrors, hfailed]
      rfl

end CommandLine

namespace RunReport

variable (r : RunReport)

/-- A run that fails is told by its exit code. -/
theorem exitCode_eq_two_iff : r.exitCode = 2 ↔ r.failed := by
  rw [exitCode]
  cases r.failed
  · by_cases h : 0 < r.errors <;> simp [h]
  · simp

/-- A run that reports nothing is told by its exit code, too. -/
theorem exitCode_eq_zero_iff : r.exitCode = 0 ↔ r.failed = false ∧ r.errors = 0 := by
  rw [exitCode]
  cases r.failed
  · by_cases h : 0 < r.errors <;> simp [h] <;> omega
  · simp

/-- There are no other exit codes than zero, one and two. -/
theorem exitCode_le_two : r.exitCode ≤ 2 := by
  rw [exitCode]
  split
  · exact Nat.le_refl 2
  · split <;> omega

end RunReport

namespace CommandLine

/-- What the rounds of a run over several files come to, given the indexes that are loaded from
them: the rounds are those of one session over these indexes. -/
structure Accounts (disk : Disk (StateM τ)) (write : Filer (StateM (σ × τ)))
    (start : Session (σ × τ)) (paths : List String) (loaded : List DeclarationIndex)
    (report : RunReport) : Prop
    extends LoadedInOrder disk write start paths loaded where
  /-- All generated classes are printed, round by round. -/
  generated : report.generated = (start.run write loaded).1.flatMap (·.generated)
  /-- Each error of the session counts once. -/
  errors : report.errors = (Diagnostic.errors (start.run write loaded).2.reports).length
  /-- The errors are the listed types that are no keys and the contributions that are dropped. -/
  errors_eq : report.errors =
    (loaded.map fun index =>
      (KeyCollection.malformedKeys start.processor.config index).length).sum +
      ((start.run write loaded).1.map (·.dropped)).sum
  /-- The run fails if a file cannot be loaded. -/
  exitCode_eq_two_iff : report.exitCode = 2 ↔ loaded.length < paths.length
  /-- The run succeeds if all files are loaded and nothing is wrong with any of them. -/
  exitCode_eq_zero_iff : report.exitCode = 0 ↔
    loaded.length = paths.length ∧
      (∀ outcome ∈ (start.run write loaded).1, outcome.dropped = 0) ∧
      ∀ index ∈ loaded, KeyCollection.malformedKeys start.processor.config index = []
  /-- Otherwise the exit code is one. -/
  exitCode_le : report.exitCode ≤ 2

/-- What is printed is read off the rounds. -/
theorem Accounts.output_eq {disk : Disk (StateM τ)} {write : Filer (StateM (σ × τ))}
    {start : Session (σ × τ)} {paths : List String} {loaded : List DeclarationIndex}
    {report : RunReport} (h : Accounts disk write start paths loaded report) :
    report.output =
      String.join
        (((start.run write loaded).1.flatMap (·.generated)).map (·.canonical ++ "\n")) := by
  rw [RunReport.output, h.generated]

/-- The rounds of a run are accounted for. -/
theorem exists_accounts {disk : Disk (StateM τ)} (hsteady : disk.Steady)
    (write : Filer (StateT σ (StateM τ))) (start : Session (σ × τ)) (hstart : start.reports = [])
    (paths : List String) :
    ∃ loaded, Accounts disk write.joined start paths loaded
      (((runRounds disk write start.processor paths).run start.filing.1).run
        start.filing.2).1.1 := by
  obtain ⟨loaded, hloaded, hreport⟩ := exists_runRounds_eq hsteady write start paths
  have hreports : (start.run write.joined loaded).2.reports =
      (start.processor.plans loaded).flatMap (·.diagnostics) := by
    rw [start.reports_run, hstart, List.nil_append]
  have hcount := start.processor.length_errors_diagnostics loaded
  rw [← start.map_dropped_run write.joined loaded] at hcount
  rw [hreport]
  refine ⟨loaded, hloaded, rfl, by rw [hreports], hcount, ?_, ?_, RunReport.exitCode_le_two _⟩
  · rw [RunReport.exitCode_eq_two_iff, decide_eq_true_iff]
  -- As many indexes are loaded as there are files exactly if all of them can be loaded.
  · have hlength : loaded.length = paths.length ↔ ¬loaded.length < paths.length := by
      have := hloaded.length_le
      omega
    rw [RunReport.exitCode_eq_zero_iff, decide_eq_false_iff_not, ← hlength, hcount,
      Nat.add_eq_zero_iff, List.sum_eq_zero_iff_forall_eq_nat, List.sum_eq_zero_iff_forall_eq_nat,
      List.forall_mem_map, List.forall_mem_map, and_comm (a := ∀ index ∈ loaded, _)]
    simp only [List.length_eq_zero_iff]

/-- What a run does whose configuration is accepted and which is not to print it, on a disk that is
not changed by looking at it. It goes through one session with the index files in their order, with
one round for each, up to the first that cannot be loaded. It prints the canonical names of the
classes that these rounds generate, round by round and each on a line. It fails exactly if a file
cannot be loaded, and succeeds exactly if all are and no round drops a contribution or meets a
listed type that is no key. -/
theorem exit_status {disk : Disk (StateM τ)} (hsteady : disk.Steady)
    (environment : List (String × String)) (a : Arguments) (t : τ) {config : Config}
    (hloaded : ((Config.load disk environment a.config).run t).1 = .ok config)
    (hprint : a.printConfig = false) :
    let config := settled a config
    let root := config.outputDir.getD defaultOutputDir
    let result := ((run disk environment a).run t).1
    (a.dryRun = true →
      let write : Filer (StateM (MemoryFiler × τ)) := Filer.joined MemoryFiler.write
      let start := Session.start config (MemoryFiler.empty, t)
      ∃ (report : RunReport) (loaded : List DeclarationIndex),
        result =
          { exitCode := report.exitCode
            output := String.join
              (((start.run write loaded).1.flatMap (·.generated)).map (·.canonical ++ "\n")) } ∧
        Accounts disk write start a.indexes loaded report) ∧
    (a.dryRun = false →
      let write := DirectoryFiler.onDisk disk
      let start := Session.start config (DirectoryFiler.ofRoot root, t)
      ∃ (report : RunReport) (loaded : List DeclarationIndex),
        result =
          { exitCode := report.exitCode
            output := String.join
              (((start.run write loaded).1.flatMap (·.generated)).map (·.canonical ++ "\n")) } ∧
        Accounts disk write start a.indexes loaded report) := by
  intro config root result
  have hrun := congrArg (·.1) (run_run_of_steady hsteady environment a t)
  rw [hloaded] at hrun
  simp only [hprint, Bool.false_eq_true, if_false] at hrun
  -- The two kinds of run differ in nothing but the filer.
  refine ⟨fun hdry => ?_, fun hdry => ?_⟩
  · intro write start
    obtain ⟨loaded, haccounts⟩ := exists_accounts hsteady MemoryFiler.write start rfl a.indexes
    rw [if_pos hdry] at hrun
    exact ⟨_, loaded, haccounts.output_eq ▸ hrun, haccounts⟩
  · intro write start
    obtain ⟨loaded, haccounts⟩ :=
      exists_accounts hsteady (DirectoryFiler.write disk) start rfl a.indexes
    rw [if_neg (by simp [hdry])] at hrun
    exact ⟨_, loaded, haccounts.output_eq ▸ hrun, haccounts⟩

/-- A tree with one file, which holds an index without types. -/
def oneIndex : FileTree :=
  ⟨[(["index.json"], .file (some "\x7b\x7d"))]⟩

/-- A run over that file and one that is missing prints what the first round generates, and
fails. -/
theorem exit_status_sample :
    let environment := [("CONTRIBUTOR_INJECTION_MODULE", "com.app.Maps")]
    let a : Arguments := { indexes := ["index.json", "missing.json"] }
    let config : Config := { injectionModule := some ⟨"com.app", "Maps", []⟩ }
    ((run FileTree.disk environment a).run oneIndex).1 =
        { exitCode := 2, output := "com.app.Maps\n" } ∧
      ∃ loaded, loaded.length < 2 ∧
        LoadedInOrder FileTree.disk (DirectoryFiler.onDisk FileTree.disk)
          (Session.start config (DirectoryFiler.ofRoot "generated", oneIndex)) a.indexes
          loaded := by
  intro environment a config
  have hresult : ((run FileTree.disk environment a).run oneIndex).1 =
      { exitCode := 2, output := "com.app.Maps\n" } := by
    decide +kernel
  have hload : ((Config.load FileTree.disk environment a.config).run oneIndex).1 = .ok config := by
    decide +kernel
  obtain ⟨-, hreal⟩ := exit_status FileTree.steady_disk environment a oneIndex hload rfl
  obtain ⟨report, loaded, hreport, haccounts⟩ := hreal rfl
  have hcode : report.exitCode = 2 := congrArg RunResult.exitCode (hreport.symm.trans hresult)
  exact ⟨hresult, loaded, haccounts.exitCode_eq_two_iff.mp hcode, haccounts.toLoadedInOrder⟩

end CommandLine

end Multibinding
