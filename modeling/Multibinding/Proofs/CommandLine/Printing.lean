import Multibinding.Proofs.CommandLine.Loading
import Multibinding.Proofs.Config.Printed

/-!
# Printing the configuration

A run that is asked to print its configuration does nothing else. What it prints is a text that the
configuration can be read back from, whatever file and environment it was loaded from, with one
exception: a file in JSON or YAML can unset the comment at the head of generated files, and a TOML
text cannot.

* `CommandLine.run_printConfig`: what such a run prints;
* `printConfig_reloads`: what is read back.
-/

namespace Multibinding

variable {τ : Type} {disk : Disk (StateM τ)} {environment : List (String × String)}
  {a : Arguments} {t : τ} {loaded : Config}

/-- A run that is asked to print its configuration prints it and is done. -/
theorem CommandLine.run_printConfig (ha : a.printConfig = true)
    (hload : ((Config.load disk environment a.config).run t).1 = .ok loaded) :
    ((run disk environment a).run t).1 =
      { exitCode := 0, output := (settled a loaded).toToml ++ "\n" } := by
  rw [run, run_bind_eq, hload]
  dsimp only
  rw [if_pos ha]
  rfl

/-- Another directory for generated files brings in no defect and no name. -/
theorem CommandLine.sound_settled (h : loaded.NamesDotted ∧ loaded.defect? = none) :
    (settled a loaded).NamesDotted ∧ (settled a loaded).defect? = none := by
  rw [settled]
  split
  · exact ⟨⟨h.1.markers, h.1.framework, h.1.injectionModule⟩, h.2⟩
  · exact h

/-- The configuration that a run prints is read back from the printed text, whatever was loaded from
a file and the environment. A comment that is unset is left out of the text and becomes the default
one. -/
theorem printConfig_reloads (ha : a.printConfig = true)
    (hload : ((Config.load disk environment a.config).run t).1 = .ok loaded) :
    let c := CommandLine.settled a loaded
    let printed := ((CommandLine.run disk environment a).run t).1
    printed.exitCode = 0 ∧ Config.ofToml printed.output =
      .ok { c with fileComment := c.fileComment <|> ({} : Config).fileComment } := by
  intro c printed
  have hprinted : printed = { exitCode := 0, output := c.toToml ++ "\n" } :=
    CommandLine.run_printConfig ha hload
  have hsound := CommandLine.sound_settled (a := a) (Config.sound_of_load hload)
  rw [hprinted]
  exact ⟨rfl, Config.ofToml_toToml hsound.1 hsound.2⟩

/-- A tree with a configuration file. -/
def configTree (text : String) : FileTree :=
  ⟨[(["c.json"], .file (some text))]⟩

/-- The request to print the configuration of that file. -/
def printConfigFile : Arguments :=
  { config := some "c.json", printConfig := true }

/-- A comment of two lines and a directory with quotes in its name are read back. -/
theorem printConfig_reloads_sample :
    let tree := configTree "\x7b\"output_dir\": \"a\\\"b'c\", \"file_comment\": \"d\\ne\"\x7d"
    let c : Config := { outputDir := some "a\"b'c", fileComment := some "d\ne" }
    let printed := ((CommandLine.run FileTree.disk [] printConfigFile).run tree).1
    ((Config.load FileTree.disk [] printConfigFile.config).run tree).1 = .ok c ∧
      printed.exitCode = 0 ∧ Config.ofToml printed.output = .ok c := by
  intro tree c printed
  have hload : ((Config.load FileTree.disk [] printConfigFile.config).run tree).1 = .ok c := by
    decide +kernel
  exact ⟨hload, printConfig_reloads rfl hload⟩

/-- A comment that is unset is not. -/
theorem printConfig_loses_unset_comment :
    let tree := configTree "\x7b\"file_comment\": null\x7d"
    let c : Config := { fileComment := none }
    let printed := ((CommandLine.run FileTree.disk [] printConfigFile).run tree).1
    ((Config.load FileTree.disk [] printConfigFile.config).run tree).1 = .ok c ∧
      printed.exitCode = 0 ∧ Config.ofToml printed.output = .ok {} ∧
      Config.ofToml printed.output ≠ .ok c := by
  intro tree c printed
  have hload : ((Config.load FileTree.disk [] printConfigFile.config).run tree).1 = .ok c := by
    decide +kernel
  have hprinted : printed = { exitCode := 0, output := c.toToml ++ "\n" } :=
    CommandLine.run_printConfig rfl hload
  have hsound := Config.sound_of_load hload
  have hreload : Config.ofToml printed.output = .ok {} := by
    rw [hprinted]
    exact Config.ofToml_toToml hsound.1 hsound.2
  refine ⟨hload, congrArg RunResult.exitCode hprinted, hreload, ?_⟩
  rw [hreload]
  decide

end Multibinding
