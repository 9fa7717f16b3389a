import RunJournal.Config
import RunJournal.Identity

/-!
# Settings of a recording

Everything that a recording needs before it starts: its identity, how to log in to the database,
and the keys of the artifact bucket. Settings are resolved as a whole, so a recording that is set
up wrongly ends before it has touched the network. Secrets never appear in their shown form.
-/

namespace RunJournal

/-- How to log in to the database. -/
structure DatabaseSettings where
  user : String
  host : String
  database : String
  password : String
  port : Nat
  requireTls : Bool
  verifyTls : Bool
deriving DecidableEq, Repr

/-- The keys of the artifact bucket. -/
structure BucketSettings where
  accessKeyId : String
  secretAccessKey : String
deriving DecidableEq, Repr

/-- Everything that a recording needs. -/
structure Settings where
  identity : Identity
  database : DatabaseSettings
  storage : BucketSettings
deriving DecidableEq, Repr

/-- The login that an environment and a configuration give. -/
def DatabaseSettings.resolve (env : Environment) (config : DatabaseConfig) :
    Except ConfigError DatabaseSettings := do
  let user ← env.require "CYPRESS_DB_USER"
  let host ← env.require "CYPRESS_DB_HOST"
  let database ← env.require "CYPRESS_DB_NAME"
  let password ← env.require "CYPRESS_DB_PWD"
  .ok ⟨user, host, database, password, config.port, config.requireTls, config.verifyTls⟩

/-- The bucket keys that an environment gives. -/
def BucketSettings.resolve (env : Environment) : Except ConfigError BucketSettings := do
  let accessKeyId ← env.require "CYPRESS_S3_ACCESS"
  let secretAccessKey ← env.require "CYPRESS_S3_SECRET"
  .ok ⟨accessKeyId, secretAccessKey⟩

/-- The settings that an environment and a configuration give, or the first error met. -/
def Settings.resolve (env : Environment) (config : Config) : Except ConfigError Settings := do
  let database ← DatabaseSettings.resolve env config.database
  let storage ← BucketSettings.resolve env
  let identity ← Identity.ofEnvironment env
  .ok ⟨identity, database, storage⟩

/-! ## Shown and written forms -/

/-- What is shown in place of a secret. -/
def redacted : String := "<redacted>"

/-- The word for a truth value. -/
def boolWord (b : Bool) : String := if b then "true" else "false"

/-- A record in its shown form: its name, and its fields in braces. -/
def shownRecord (name : String) (fields : List (String × String)) : String :=
  name ++ " \x7b " ++ ", ".intercalate (fields.map fun f => f.1 ++ ": " ++ f.2) ++ " \x7d"

/-- A login in its shown form. -/
def DatabaseSettings.shown (s : DatabaseSettings) : String :=
  shownRecord "DbSettings" [("user", Text.quoted s.user), ("host", Text.quoted s.host),
    ("database", Text.quoted s.database), ("password", Text.quoted redacted),
    ("port", Text.natText s.port), ("require_tls", boolWord s.requireTls),
    ("verify_tls", boolWord s.verifyTls)]

/-- Bucket keys in their shown form. -/
def BucketSettings.shown (s : BucketSettings) : String :=
  shownRecord "S3Settings" [("access_key_id", Text.quoted s.accessKeyId),
    ("secret_access_key", Text.quoted redacted)]

/-- Settings as JSON, secrets included. -/
def Settings.toJson (s : Settings) : Json :=
  .object [("identity", s.identity.toJson),
    ("database", .object [("user", .text s.database.user), ("host", .text s.database.host),
      ("database", .text s.database.database), ("password", .text s.database.password),
      ("port", .nat s.database.port), ("require_tls", .bool s.database.requireTls),
      ("verify_tls", .bool s.database.verifyTls)]),
    ("storage", .object [("access_key_id", .text s.storage.accessKeyId),
      ("secret_access_key", .text s.storage.secretAccessKey)])]

end RunJournal
