import RunJournal.Command.Run
import Std.Time.DateTime.Timestamp

/-!
# The program

Gathers the arguments, the environment, the standard input and the files that a command needs, and
writes what the command has to say. No database is linked to the program, so a recording finds none
and goes on without.

The files to be uploaded are known only after a command has run. It is therefore run again with
every file that it has missed and that was not looked for yet, until it misses no other.
-/

namespace RunJournal.Program

/-- The server that stands for the database: none. -/
def noServer : Server Unit :=
  let cause : DatabaseError := .unreachable "Connection refused (os error 111)"
  { reach := fun s => (.error cause, s)
    encrypts := fun s => (false, s)
    login := fun _ _ _ s => (.error cause, s)
    execute := fun _ s => (.error cause, s)
    hangUp := fun s => (.ok (), s) }

/-- The fault that an error of the system stands for. -/
def faultOf : IO.Error → FileFault
  | .noFileOrDirectory _ _ _ => .notFound
  | .inappropriateType _ code _ => if code = 21 then .isDirectory else .notDirectory
  | .invalidArgument _ 36 _ => .nameTooLong
  | .permissionDenied _ _ _ => .denied
  | _ => .notFound

/-- Looks at what is at a path. -/
def look (path : String) : IO (Except FileFault Entry) := do
  if path.toList.contains '\x00' then return .error .nul
  try
    let contents ← IO.FS.readBinFile path
    return .ok (.file contents.toList)
  catch e =>
    match faultOf e with
    | .isDirectory => return .ok .directory
    | fault => return .error fault

/-- The disk as far as it was looked at. -/
def seen (entries : List (String × Except FileFault Entry)) : Disk := fun path =>
  (entries.lookup path).getD (.error .notFound)

/-- The files that a command line names. -/
def namedFiles (env : Environment) (args : List String) : List String :=
  match CommandLine.read args with
  | .run invocation =>
    let config := (invocation.config.or (env.get? configVariable)).toList
    match invocation.command with
    | .record (some path) _ => path :: config
    | _ => config
  | _ => []

/-- Whether a command line asks for the standard input. -/
def needsInput (args : List String) : Bool :=
  match CommandLine.read args with
  | .run ⟨_, .record none _⟩ => true
  | _ => false

/-- The variables that the program looks at. -/
def consultedVariables : List String := configVariable :: "COMMIT_INFO_MESSAGE" :: requiredVariables

/-- Runs the program on what was seen of the disk, and looks at what it has missed. -/
partial def runSeen (run : Disk → Ending) (entries : List (String × Except FileFault Entry)) :
    IO Ending := do
  let ending := run (seen entries)
  let missed := ending.failures.map (·.upload.path) |>.filter fun path =>
    (entries.lookup path).isNone
  match missed.eraseDups with
  | [] => return ending
  | paths =>
    let more ← paths.mapM fun path => return (path, ← look path)
    runSeen run (entries ++ more)

/-- A notice as a line. -/
def noticeLine (n : Notice) : String :=
  n.level.name ++ " " ++ n.message ++
    String.join (n.fields.map fun f => " " ++ f.1 ++ "=" ++ f.2)

/-- A failed upload as a line. -/
def failureLine (f : UploadFailure) : String :=
  "ERROR artifact upload failed kind=" ++ f.upload.kind.name ++ " key=" ++ f.upload.key ++
    " error=" ++ readFailureMessage f.upload.path f.cause

end RunJournal.Program

open RunJournal RunJournal.Program in
def main (args : List String) : IO UInt32 := do
  let env ← consultedVariables.filterMapM fun name => return (← IO.getEnv name).map (name, ·)
  let stdin ←
    if needsInput args then pure (← IO.FS.readBinFile "/dev/stdin").toList else pure []
  let nanos := (← Std.Time.Timestamp.now).toNanosecondsSinceUnixEpoch.val
  let now : RunJournal.Timestamp := ⟨nanos / 1000000000, (nanos % 1000000000).toNat⟩
  let clock : Instant := ⟨(← IO.monoNanosNow) / 1000000000, 0⟩
  let entries ← (namedFiles env args).mapM fun path => return (path, ← look path)
  let run (disk : Disk) : Ending :=
    (CommandLine.execute ⟨disk, now, clock⟩ Timestamp.text noServer env stdin args ()).1
  let ending ← runSeen run entries
  for n in ending.notices do IO.eprintln (noticeLine n)
  for f in ending.failures do IO.eprintln (failureLine f)
  IO.print ending.output
  match ending.errorText with
  | some text => IO.eprintln ("Error: " ++ text)
  | none => pure ()
  return ending.exitCode.toUInt32
