/-!
# The command line

What a list of arguments asks for. An option for the configuration file may stand before and after
the name of a command, once in either place, and the one after it counts. An option takes the
argument after it, or what follows an equals sign; its value may be neither empty nor an option
itself. Everything else that is not known makes the whole line invalid, unless help was asked for
before it.
-/

namespace RunJournal

/-- The commands. -/
inductive Command where
  /-- Record events from a file, or from standard input; a dry run only reports. -/
  | record (events : Option String) (isDryRun : Bool)
  /-- Make the tables. -/
  | migrate
  /-- Show whether the environment is complete. -/
  | checkEnv
deriving DecidableEq, Repr

/-- A command with the configuration file that was named for it. -/
structure Invocation where
  config : Option String
  command : Command
deriving DecidableEq, Repr

/-- What a list of arguments comes to. -/
inductive CommandLine where
  | run (invocation : Invocation)
  | help
  | version
  | invalid
deriving DecidableEq, Repr

namespace CommandLine

/-- Options gathered so far. -/
structure Options where
  config : Option String
  events : Option String
  isDryRun : Bool

/-- No options. -/
def Options.none : Options := ⟨Option.none, Option.none, false⟩

/-- The value after an equals sign, for an argument that begins with an option and that sign. -/
def valueOf? (option arg : String) : Option String :=
  let lead := (option ++ "=").toList
  if lead.isPrefixOf arg.toList then some (String.ofList (arg.toList.drop lead.length)) else none

/-- Whether an argument may be the value of an option. -/
def isValue (arg : String) : Bool :=
  arg != "" && (arg == "-" || !(arg.toList.head? == some '-'))

/-- Sets a value that may be given once. -/
def setOnce (old : Option String) (value : String) : Option (Option String) :=
  if old.isNone then some (some value) else none

/-- Whether an argument begins with a letter option. -/
def isShort (letter : Char) (arg : String) : Bool := ['-', letter].isPrefixOf arg.toList

/-- The names of the commands. -/
def commandNames : List String := ["record", "migrate", "check-env"]

/-- The command of a name with its options. -/
def command (name : String) (o : Options) : Command :=
  if name = "record" then .record o.events o.isDryRun
  else if name = "migrate" then .migrate
  else .checkEnv

/-- Reads the arguments after the name of a command; `outer` is the configuration file named
before it. -/
def readOptions (name : String) (outer : Option String) : Options → List String → CommandLine
  | o, [] => .run ⟨o.config.or outer, command name o⟩
  | o, ["--"] => readOptions name outer o []
  | o, "--config" :: value :: rest =>
    match isValue value, setOnce o.config value with
    | true, some config => readOptions name outer { o with config } rest
    | _, _ => .invalid
  | o, "--events" :: value :: rest =>
    match name = "record" && isValue value, setOnce o.events value with
    | true, some events => readOptions name outer { o with events } rest
    | _, _ => .invalid
  | o, "--dry-run" :: rest =>
    if name = "record" && !o.isDryRun then
      readOptions name outer { o with isDryRun := true } rest
    else .invalid
  | o, arg :: rest =>
    if arg = "--help" || isShort 'h' arg then .help
    else match valueOf? "--config" arg, valueOf? "--events" arg with
    | some value, _ =>
      match value != "", setOnce o.config value with
      | true, some config => readOptions name outer { o with config } rest
      | _, _ => .invalid
    | none, some value =>
      match name = "record" && value != "", setOnce o.events value with
      | true, some events => readOptions name outer { o with events } rest
      | _, _ => .invalid
    | none, none => .invalid

/-- Reads the arguments of the command `help`. -/
def readHelp : List String → CommandLine
  | [] => .help
  | [name] => if name = "help" || commandNames.contains name then .help else .invalid
  | _ => .invalid

/-- Reads a list of arguments; `config` is the configuration file named so far. -/
def readFrom (config : Option String) : List String → CommandLine
  | [] => .invalid
  | "--config" :: value :: rest =>
    match isValue value, setOnce config value with
    | true, some config => readFrom config rest
    | _, _ => .invalid
  | "help" :: rest => readHelp rest
  | arg :: rest =>
    if commandNames.contains arg then readOptions arg config .none rest
    else if arg = "--help" || isShort 'h' arg then .help
    else if arg = "--version" || isShort 'V' arg then .version
    else match valueOf? "--config" arg with
    | some value =>
      match value != "", setOnce config value with
      | true, some config => readFrom config rest
      | _, _ => .invalid
    | none => .invalid

/-- Reads a list of arguments. -/
def read (args : List String) : CommandLine := readFrom none args

end CommandLine

end RunJournal
