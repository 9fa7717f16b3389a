import RunJournal.Command.Invocation
import RunJournal.Config.Source
import RunJournal.Json.Printer
import RunJournal.Recording

/-!
# Running commands

A command ends with an exit code, with what it has written, and, where it failed, with a text that
says why: what is wrong, and below it the causes. A recording whose deadline the clock does not
have is broken off: it ends with an exit code of its own and without a text. What it writes is a function of its arguments, the
environment, the files, the standard input and the server, so the program itself only has to
gather these.
-/

namespace RunJournal

/-- How a command ends. -/
structure Ending where
  exitCode : Nat
  /-- What it has written to standard output. -/
  output : String
  /-- Why it failed, for an exit code of 1. -/
  errorText : Option String
  notices : List Notice
  failures : List UploadFailure

/-- What the program is called, with its version. -/
def versionText : String := "runledger 0.1.0\n"

/-- A few words on how to use the program. -/
def helpText : String :=
  "Usage: runledger [--config <FILE>] <COMMAND>\n\nCommands:\n" ++
    "  record     [--events <FILE>] [--dry-run]\n  migrate\n  check-env\n  help\n"

/-- A text with `lead` after each line break. -/
def indentLines (lead s : String) : String := lead.intercalate (s.splitOn "\n")

/-- The causes below an error, numbered when there are several. -/
def causesText : List String → String
  | [] => ""
  | [cause] => "\n\nCaused by:\n    " ++ indentLines "\n    " cause
  | causes => "\n\nCaused by:" ++ String.join (causes.zipIdx.map fun (cause, i) =>
      "\n    " ++ Text.natText i ++ ": " ++ indentLines "\n       " cause)

/-- An error with its causes. -/
def chainText : List String → String
  | [] => ""
  | outermost :: causes => outermost ++ causesText causes

/-- The ending of a command that failed. -/
def Ending.failed (chain : List String) (notices : List Notice) : Ending :=
  ⟨1, "", some (chainText chain), notices, []⟩

/-- The ending of a command that succeeded. -/
def Ending.succeeded (output : String) : Ending := ⟨0, output, none, [], []⟩

/-- The ending of a command that was broken off. -/
def Ending.brokenOff (notices : List Notice) : Ending := ⟨101, "", none, notices, []⟩

/-- The ending of a recording. -/
def Concluded.ending {α : Type} (c : Concluded α) (output : α → String) : Ending :=
  match c.result with
  | .ok a => ⟨0, output a, none, c.notices, c.failures⟩
  | .error .deadline => .brokenOff c.notices
  | .error cause => .failed cause.chain c.notices

/-- A line of a list of names with values, the names filled up to one width. -/
def settingLine (name value : String) : String :=
  name ++ String.ofList (List.replicate (12 - name.length) ' ') ++ " : " ++ value ++ "\n"

/-- What is shown of a complete environment. -/
def settingsText (s : Settings) (c : Config) : String :=
  "\n=== runledger environment ===\n" ++
    settingLine "Workflow" (Text.intText s.identity.workflowId) ++
    settingLine "Attempt" (Text.intText s.identity.attempt) ++
    settingLine "Shard" s.identity.matrixId ++
    settingLine "Repository" s.identity.repo ++
    settingLine "Branch" s.identity.branch ++
    settingLine "Database" s.database.host ++
    settingLine "Bucket" c.artifacts.bucket ++
    "All required variables are set.\n\n"

variable {σ : Type}

/-- Runs a command with a configuration. Times in reports are shown by `time`. -/
def Command.run (around : Surroundings) (time : Timestamp → String) (server : Server σ)
    (env : Environment) (stdin : List UInt8) (config : Config) (s : σ) : Command → Ending × σ
  | .record events isDryRun =>
    let source := match events with
      | some path => EventSource.file path
      | none => .stream stdin
    if isDryRun then
      ((dryRun around env config source).ending fun r => (r.toJson time).indented ++ "\n", s)
    else
      let (concluded, s) := RunJournal.record around server env config source s
      (concluded.ending fun _ => "", s)
  | .migrate =>
    match RunJournal.migrate server env config s with
    | (.error cause, s) => (.failed cause.chain [], s)
    | (.ok _, s) => (.succeeded "Schema is up to date.\n", s)
  | .checkEnv =>
    match Settings.resolve env config with
    | .error cause => (.failed [cause.message] [], s)
    | .ok settings => (.succeeded (settingsText settings config), s)

/-- Runs the program. -/
def CommandLine.execute (around : Surroundings) (time : Timestamp → String) (server : Server σ)
    (env : Environment) (stdin : List UInt8) (args : List String) (s : σ) : Ending × σ :=
  match CommandLine.read args with
  | .help => (.succeeded helpText, s)
  | .version => (.succeeded versionText, s)
  | .invalid => (⟨2, "", none, [], []⟩, s)
  | .run invocation =>
    match Config.loadOrDefault around.disk invocation.config (env.get? configVariable) with
    | .error cause => (.failed cause.chain [], s)
    | .ok (config, _) => invocation.command.run around time server env stdin config s

end RunJournal
