import Multibinding.CommandLine.Run
import Multibinding.Emission.FileTree
import Multibinding.Proofs.Except

/-!
# What is loaded in a run

Loading a configuration or an index only looks at files. Where looking at a disk changes nothing on
it, what a run loads leaves the disk as it is, so that only its rounds change it.

* `Disk.Steady`: looking changes nothing;
* `run_ofFile_of_steady`, `run_load_of_steady`: neither does loading;
* `run_run_of_steady`: what a run does once its configuration is loaded.
-/

namespace Multibinding

variable {τ : Type}

/-- Looking at a disk changes nothing on it. -/
def Disk.Steady (disk : Disk (StateM τ)) : Prop :=
  ∀ path t, ((disk.look path).run t).2 = t

/-- Trees of files are disks of this kind. -/
theorem FileTree.steady_disk : FileTree.disk.Steady :=
  fun _ _ => rfl

section Steady

variable {disk : Disk (StateM τ)} (hsteady : disk.Steady)
include hsteady

/-- What follows a look at a path finds the disk as it is. -/
theorem Disk.Steady.run_look_bind {α : Type} (path : String) (next : DiskEntry → StateM τ α)
    (t : τ) : (disk.look path >>= next).run t = (next ((disk.look path).run t).1).run t := by
  rw [run_bind_eq, hsteady]

/-- Loading an index changes nothing. -/
theorem run_ofFile_of_steady (path : String) (t : τ) :
    ((DeclarationIndex.ofFile disk path).run t).2 = t := by
  have hread : ((disk.readText path).run t).2 = t := by
    rw [Disk.readText, hsteady.run_look_bind]
    rcases ((disk.look path).run t).1 with _ | _ | _ | text <;> rfl
  rw [DeclarationIndex.ofFile, run_bind_eq, hread]
  cases ((disk.readText path).run t).1 <;> rfl

/-- Loading a configuration changes nothing. -/
theorem run_load_of_steady (environment : List (String × String)) (path : Option String) (t : τ) :
    ((Config.load disk environment path).run t).2 = t := by
  have hfirst (paths : List (String × ConfigFormat)) :
      ((Config.readFirst disk paths).run t).2 = t := by
    induction paths with
    | nil => rfl
    | cons first rest ih =>
      rw [Config.readFirst, hsteady.run_look_bind]
      split
      · rfl
      · split <;> rfl
      · exact ih
  have hfile (path : String) : ((Config.readFile disk path).run t).2 = t := by
    rw [Config.readFile, hsteady.run_look_bind]
    split
    · rfl
    · exact hfirst _
    · split
      · rfl
      · exact hfirst _
  -- Only a file can be looked at, as the environment is given.
  cases path with
  | none => rfl
  | some path => exact hfile path

namespace CommandLine

/-- What follows the configuration finds the disk as it is. -/
theorem run_load_bind_of_steady (environment : List (String × String)) (path : Option String)
    (t : τ) {α : Type} (next : Except ConfigError Config → StateM τ α) :
    (Config.load disk environment path >>= next).run t =
      (next ((Config.load disk environment path).run t).1).run t := by
  rw [run_bind_eq, run_load_of_steady hsteady]

end CommandLine

end Steady

namespace CommandLine

/-- The configuration of a run, given the one that has been loaded. -/
def settled (a : Arguments) (config : Config) : Config :=
  match a.out with
  | some out => { config with outputDir := some out }
  | none => config

/-- What a run does once its configuration is loaded. -/
theorem run_run_of_steady {disk : Disk (StateM τ)} (hsteady : disk.Steady)
    (environment : List (String × String)) (a : Arguments) (t : τ) :
    (run disk environment a).run t =
      match ((Config.load disk environment a.config).run t).1 with
      | .error _ => ({ exitCode := 2, output := "" }, t)
      | .ok config =>
        let config := settled a config
        if a.printConfig then ({ exitCode := 0, output := config.toToml ++ "\n" }, t)
        else if a.dryRun then
          let rounds := ((runRounds disk MemoryFiler.write (.ofConfig config)
            a.indexes).run .empty : StateM τ _).run t
          ({ exitCode := rounds.1.1.exitCode, output := rounds.1.1.output }, rounds.2)
        else
          let rounds := ((runRounds disk (DirectoryFiler.write disk) (.ofConfig config)
            a.indexes).run (.ofRoot (config.outputDir.getD defaultOutputDir))).run t
          ({ exitCode := rounds.1.1.exitCode, output := rounds.1.1.output }, rounds.2) := by
  rw [run, run_load_bind_of_steady hsteady]
  cases ((Config.load disk environment a.config).run t).1 with
  | error e => rfl
  | ok config =>
    dsimp only
    split
    · rfl
    · split <;> rfl

end CommandLine

end Multibinding
