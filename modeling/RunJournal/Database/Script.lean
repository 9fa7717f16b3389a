import RunJournal.Database.Gateway

/-!
# A scripted server

A server that replies by a list: the first reply to the first statement, and so on. Where the list
has no reply of its own for a statement, and after its end, a statement that gives identifiers gets
the next one of a counter. The server keeps a record of everything that was asked of it. It never
encrypts, and it may be told to refuse connections or logins.
-/

namespace RunJournal

/-- What was asked of a server. -/
inductive Asked where
  /-- Whether it encrypts. -/
  | encryption
  /-- A login. -/
  | login (user database : String)
  | password (password : String)
  | statement (q : Statement)
  /-- The end of the link. -/
  | hangUp
deriving DecidableEq, Repr

/-- One reply of a script; without a reply of its own a statement gets the default. -/
inductive ScriptedReply where
  | ids (ids : List Int)
  | error (message : String)
  | byDefault
deriving DecidableEq, Repr

/-- A script and how far it has come. -/
structure Script where
  /-- The message of the system for a connection that is refused. -/
  refusal : Option String
  /-- The message for a login that is refused. -/
  loginError : Option String
  asksPassword : Bool
  replies : List ScriptedReply
  /-- The next identifier of the counter. -/
  nextId : Int
  /-- What was asked so far, in order. -/
  asked : List Asked
deriving DecidableEq, Repr

namespace Script

/-- Keeps a record of something asked. -/
def note (s : Script) (a : Asked) : Script := { s with asked := s.asked ++ [a] }

/-- The default reply to a statement. -/
def defaultReply (q : Statement) (s : Script) : Reply × Script :=
  if q.givesIds then (.ok [s.nextId], { s with nextId := s.nextId + 1 }) else (.ok [], s)

/-- The reply to a statement. -/
def reply (q : Statement) (s : Script) : Reply × Script :=
  match s.replies with
  | [] => defaultReply q s
  | r :: rest =>
    let s := { s with replies := rest }
    match r with
    | .ids ids => (.ok ids, s)
    | .error message => (.error (.refused message), s)
    | .byDefault => defaultReply q s

/-- The login to a scripted server. -/
def login (user database password : String) (s : Script) : Except DatabaseError Unit × Script :=
  let s := s.note (.login user database)
  let s := if s.asksPassword then s.note (.password password) else s
  match s.loginError with
  | some message => (.error (.refused message), s)
  | none => (.ok (), s)

/-- The server that follows a script. -/
def server : Server Script where
  reach s := match s.refusal with
    | some cause => (.error (.unreachable cause), s)
    | none => (.ok (), s)
  encrypts s := (false, s.note .encryption)
  login := login
  execute q s := reply q (s.note (.statement q))
  hangUp s := (.ok (), s.note .hangUp)

end Script

end RunJournal
