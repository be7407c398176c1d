import Multibinding.CommandLine.Arguments
import Multibinding.Config.Load
import Multibinding.Config.Toml
import Multibinding.Declaration.Load
import Multibinding.Round

/-!
# Runs of the command line

A run loads the configuration and then processes the index files in their order, one round for each,
with one processor and one filer. It prints the names of the generated classes of each round. An
index that cannot be loaded ends the run; what the rounds before it have printed and written stays.
-/

namespace Multibinding

/-- What a run leaves behind: what it prints and its exit code. -/
structure RunResult where
  /-- The exit code. -/
  exitCode : Nat
  /-- The text on standard output. -/
  output : String
deriving DecidableEq

/-- What the rounds of a run come to. -/
structure RunReport where
  /-- The generated classes in their order. -/
  generated : List ClassName := []
  /-- How many errors have been reported. -/
  errors : Nat := 0
  /-- Whether an index could not be loaded. -/
  failed : Bool := false
deriving DecidableEq

namespace RunReport

/-- The exit code of a run: two if an index could not be loaded, and one if there were errors. -/
def exitCode (r : RunReport) : Nat :=
  if r.failed then 2 else if 0 < r.errors then 1 else 0

/-- What a run prints: each class on a line. -/
def output (r : RunReport) : String :=
  String.join (r.generated.map (·.canonical ++ "\n"))

end RunReport

namespace CommandLine

variable {m : Type → Type} [Monad m]

/-- Runs a round for each index file, up to the first that cannot be loaded. -/
def runRounds {n : Type → Type} [Monad n] [MonadLiftT m n] (disk : Disk m) (write : Filer n)
    (p : Processor) : List String → n RunReport
  | [] => return {}
  | path :: rest => do
    match ← monadLift (DeclarationIndex.ofFile disk path) with
    -- The index files behind it are not looked at.
    | .error _ => return { failed := true }
    | .ok index =>
      let (outcome, reports, p) ← p.processRound write index
      let report ← runRounds disk write p rest
      return { report with
        generated := outcome.generated ++ report.generated
        errors := (Diagnostic.errors reports).length + report.errors }

/-- The directory that files go to unless stated. -/
def defaultOutputDir : String := "generated"

/-- Runs what the arguments ask for. -/
def run (disk : Disk m) (environment : List (String × String)) (a : Arguments) : m RunResult := do
  match ← Config.load disk environment a.config with
  | .error _ => return { exitCode := 2, output := "" }
  | .ok config =>
    -- The command line takes precedence over the file and the environment.
    let config := match a.out with
      | some out => { config with outputDir := some out }
      | none => config
    if a.printConfig then return { exitCode := 0, output := config.toToml ++ "\n" }
    else
      let p := Processor.ofConfig config
      let report ←
        if a.dryRun then
          (·.1) <$> (runRounds disk MemoryFiler.write p a.indexes).run .empty
        else
          let root := config.outputDir.getD defaultOutputDir
          (·.1) <$> (runRounds disk (DirectoryFiler.write disk) p a.indexes).run (.ofRoot root)
      return { exitCode := report.exitCode, output := report.output }

/-- The version of the program. -/
def versionLine : String := "contributor 0.1.0\n"

/-- Answers a command line. -/
def answer (disk : Disk m) (environment : List (String × String)) (arguments : List String) :
    m RunResult :=
  match Arguments.parse arguments with
  | .run a => run disk environment a
  | .help => return { exitCode := 0, output := "" }
  | .version => return { exitCode := 0, output := versionLine }
  | .misuse => return { exitCode := 2, output := "" }

end CommandLine

end Multibinding
