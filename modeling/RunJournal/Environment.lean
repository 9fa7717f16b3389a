import RunJournal.Text.Quoted
import RunJournal.Text.Blank
import RunJournal.Text.Digits

/-!
# Environment variables

An environment is a list of names with values, of which the last of a name counts. A variable that
is needed and absent, and one whose value cannot be read as what it stands for, are the two ways
in which an environment can be wrong; the second never hides the first, because a value is read
only after it was found.
-/

namespace RunJournal

/-- Names with values; the last pair of a name counts. -/
abbrev Environment := List (String × String)

/-- Why an environment is refused. -/
inductive ConfigError where
  /-- A needed variable is absent. -/
  | missing (name : String)
  /-- The value of a variable is not what is `expected`. -/
  | invalid (name value expected : String)
deriving DecidableEq, Repr

/-- The variables that have to be given. -/
def requiredVariables : List String :=
  ["RUNID", "ATTEMPT_NUMBER", "REPOSITORY", "COMMITTER", "TAG", "BRANCH", "THIS_RUNNER",
    "CYPRESS_DB_USER", "CYPRESS_DB_HOST", "CYPRESS_DB_NAME", "CYPRESS_DB_PWD",
    "CYPRESS_S3_ACCESS", "CYPRESS_S3_SECRET"]

/-- The value of a variable that is absent and not needed. -/
def placeholder : String := "Cypress test"

/-- The wording of a configuration error. -/
def ConfigError.message : ConfigError → String
  | .missing name =>
    "environment variable " ++ name ++
      " is not set; check that all of the following are set: [" ++
      ", ".intercalate requiredVariables ++ "]"
  | .invalid name value expected =>
    "environment variable " ++ name ++ " has invalid value " ++ Text.quoted value ++
      ": expected " ++ expected

namespace Environment

/-- The value of a variable, if it is present. -/
def get? (env : Environment) (name : String) : Option String := env.reverse.lookup name

/-- The value of a variable that is needed. -/
def require (env : Environment) (name : String) : Except ConfigError String :=
  match env.get? name with
  | some value => .ok value
  | none => .error (.missing name)

/-- The value of a variable that is not needed. -/
def getOrPlaceholder (env : Environment) (name : String) : String :=
  (env.get? name).getD placeholder

/-- The integer from `low` to `high` that a needed variable holds, with any white space around
it. -/
def requireInt (env : Environment) (name expected : String) (low high : Int) :
    Except ConfigError Int := do
  let value ← env.require name
  match Text.readIntIn low high (Text.trim value.toList) with
  | some i => .ok i
  | none => .error (.invalid name value expected)

end Environment

end RunJournal
