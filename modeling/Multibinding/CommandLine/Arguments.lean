/-!
# Command-line arguments

Options have a long name and some of them a letter. Letters without values can be joined in one
argument; the value of a letter may follow it directly, with or without an equals sign, and that of
a long name only with one. Everything else is misuse, also an option given twice, except that
several indexes may be given.
-/

namespace Multibinding

/-- What the command line asks a run for. -/
structure Arguments where
  /-- The configuration file. -/
  config : Option String := none
  /-- The index files, one for each round. -/
  indexes : List String := []
  /-- The directory that generated files go to. -/
  out : Option String := none
  /-- How much is logged. -/
  logLevel : Option String := none
  /-- Whether log lines are JSON. -/
  jsonLogs : Bool := false
  /-- Whether no files are written. -/
  dryRun : Bool := false
  /-- Whether only the configuration is printed. -/
  printConfig : Bool := false
deriving DecidableEq

/-- What a command line asks for. -/
inductive Request where
  | run (arguments : Arguments)
  | help
  | version
  /-- The command line cannot be understood. -/
  | misuse
deriving DecidableEq

namespace Arguments

/-- An option. -/
inductive Opt where
  | config
  | index
  | out
  | logLevel
  | jsonLogs
  | dryRun
  | printConfig
  | help
  | version
deriving DecidableEq

namespace Opt

/-- The options by their long names. -/
def longNames : List (String × Opt) :=
  [("config", .config), ("index", .index), ("out", .out), ("log-level", .logLevel),
    ("json-logs", .jsonLogs), ("dry-run", .dryRun), ("print-config", .printConfig),
    ("help", .help), ("version", .version)]

/-- The options by their letters. -/
def letters : List (Char × Opt) :=
  [('c', .config), ('i', .index), ('o', .out), ('h', .help), ('V', .version)]

/-- Whether an option has a value. -/
def takesValue : Opt → Bool
  | .config | .index | .out | .logLevel => true
  | .jsonLogs | .dryRun | .printConfig | .help | .version => false

end Opt

/-- Sets an option that may be given once. -/
def once {α : Type} (old : Option α) (value : α) : Option (Option α) :=
  if old.isSome then none else some (some value)

/-- Sets an option to a value. A path must not be empty. -/
def setValue (a : Arguments) (opt : Opt) (value : String) : Option Arguments := do
  match opt with
  | .config =>
    if value.isEmpty then none else return { a with config := ← once a.config value }
  | .out =>
    if value.isEmpty then none else return { a with out := ← once a.out value }
  | .index =>
    if value.isEmpty then none else return { a with indexes := a.indexes ++ [value] }
  | .logLevel => return { a with logLevel := ← once a.logLevel value }
  | _ => none

/-- Sets an option without a value. -/
def setFlag (a : Arguments) (opt : Opt) : Option Arguments :=
  match opt with
  | .jsonLogs => if a.jsonLogs then none else some { a with jsonLogs := true }
  | .dryRun => if a.dryRun then none else some { a with dryRun := true }
  | .printConfig => if a.printConfig then none else some { a with printConfig := true }
  | _ => none

/-- What is known after some of the arguments. -/
inductive Progress where
  /-- More arguments may follow; the value of an option may be due. -/
  | going (arguments : Arguments) (due : Option Opt)
  /-- Only words may follow, none of which is understood. -/
  | words (arguments : Arguments)
  /-- What follows does not matter. -/
  | done (request : Request)

/-- What is known after an option has been set. -/
def Progress.ofSet : Option Arguments → Progress
  | some a => .going a none
  | none => .done .misuse

/-- Takes the letters of an argument. -/
def letters (a : Arguments) : List Char → Progress
  | [] => .going a none
  | c :: rest =>
    match Opt.letters.lookup c with
    | none => .done .misuse
    -- Help and version count whatever stands behind them.
    | some .help => .done .help
    | some .version => .done .version
    | some opt =>
      if opt.takesValue then
        match rest with
        | [] => .going a (some opt)
        -- The equals sign is no part of the value.
        | '=' :: value => .ofSet (a.setValue opt (String.ofList value))
        | value => .ofSet (a.setValue opt (String.ofList value))
      else
        match a.setFlag opt with
        | some a => letters a rest
        | none => .done .misuse

/-- Takes a long name, with its value if an equals sign follows it. -/
def longName (a : Arguments) (s : List Char) : Progress :=
  let name := String.ofList (s.takeWhile (· != '='))
  let value := match s.dropWhile (· != '=') with
    | _ :: value => some (String.ofList value)
    | [] => none
  match Opt.longNames.lookup name, value with
  | none, _ => .done .misuse
  | some .help, none => .done .help
  | some .version, none => .done .version
  | some opt, some value =>
    if opt.takesValue then .ofSet (a.setValue opt value) else .done .misuse
  | some opt, none =>
    if opt.takesValue then .going a (some opt) else .ofSet (a.setFlag opt)

/-- Takes an argument. -/
def step : Progress → String → Progress
  | .done request, _ => .done request
  | .words _, _ => .done .misuse
  | .going a due, argument =>
    match argument.toList, due with
    -- A lone dash is a word and can be a value, every other dash starts an option.
    | ['-', '-'], none => .words a
    | '-' :: '-' :: name, none => longName a name
    | '-' :: c :: rest, none => letters a (c :: rest)
    | '-' :: _ :: _, some _ => .done .misuse
    | _, some opt => .ofSet (a.setValue opt argument)
    | _, none => .done .misuse

/-- The request of a command line. Indexes are needed unless only the configuration is printed. -/
def parse (arguments : List String) : Request :=
  match arguments.foldl step (.going {} none) with
  | .done request => request
  | .going _ (some _) => .misuse
  | .going a none | .words a =>
    if a.indexes.isEmpty && !a.printConfig then .misuse else .run a

end Arguments

end Multibinding
