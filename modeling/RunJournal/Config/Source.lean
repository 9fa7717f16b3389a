import RunJournal.Config
import RunJournal.Disk.Basic

/-!
# Where a configuration comes from

A configuration file may be named on the command line or in the environment, in this order; without
either the defaults hold. A file that was named and cannot be used is an error.
-/

namespace RunJournal

/-- The variable that names a configuration file. -/
def configVariable : String := "RUNLEDGER_CONFIG"

/-- Why a configuration file cannot be used. -/
inductive ConfigFileError where
  /-- It cannot be read. -/
  | unreadable (path : String) (cause : FileFault)
  /-- It is not text. -/
  | notText (path : String)
  /-- It is not a configuration. -/
  | malformed (path : String)
deriving DecidableEq, Repr

/-- What is wrong, and below it why. -/
def ConfigFileError.chain : ConfigFileError → List String
  | .unreadable path cause => ["failed to read config file: " ++ path, cause.message]
  | .notText path => ["failed to read config file: " ++ path, "stream did not contain valid UTF-8"]
  | .malformed path => ["failed to parse config file: " ++ path]

/-- The configuration in a file. -/
def Config.load (disk : Disk) (path : String) : Except ConfigFileError Config :=
  match disk.readText path with
  | .error cause => .error (.unreadable path cause)
  | .ok none => .error (.notText path)
  | .ok (some cs) =>
    match Config.read cs with
    | some config => .ok config
    | none => .error (.malformed path)

/-- The configuration in the file that was named first, or the default, with the name. -/
def Config.loadOrDefault (disk : Disk) (explicit fromEnvironment : Option String) :
    Except ConfigFileError (Config × Option String) :=
  match explicit.or fromEnvironment with
  | none => .ok (Config.default, none)
  | some path => (Config.load disk path).map fun config => (config, some path)

end RunJournal
