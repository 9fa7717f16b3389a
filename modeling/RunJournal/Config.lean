import RunJournal.Toml.Reader
import RunJournal.Json.Value

/-!
# Configuration

What may be tuned without naming a run: how to reach the database, where artifacts go, and what is
logged. A configuration is a TOML document with three sections, all of which may be missing, and a
section need not give all its fields: whatever is not given has its default. Names that are not
known are passed over. A section may also be an array of its fields in the order of their
declaration.
-/

namespace RunJournal

/-- How to reach the database. -/
structure DatabaseConfig where
  port : Nat
  /-- Whether an unencrypted connection is refused. -/
  requireTls : Bool
  /-- Whether the certificate and the name of the server are checked. -/
  verifyTls : Bool
deriving DecidableEq, Repr

/-- Where artifacts go. -/
structure ArtifactConfig where
  bucket : String
  region : String
  /-- How many seconds unfinished uploads are waited for at the end. -/
  uploadGraceSecs : Nat
deriving DecidableEq, Repr

/-- What is logged. -/
structure LoggingConfig where
  filter : String
  json : Bool
deriving DecidableEq, Repr

/-- A configuration. -/
structure Config where
  database : DatabaseConfig
  artifacts : ArtifactConfig
  logging : LoggingConfig
deriving DecidableEq, Repr

/-- The default of the section on the database. -/
def DatabaseConfig.default : DatabaseConfig := ⟨5432, true, true⟩

/-- The default of the section on artifacts. -/
def ArtifactConfig.default : ArtifactConfig := ⟨"appsmith-internal-cy-db", "ap-south-1", 30⟩

/-- The default of the section on logging. -/
def LoggingConfig.default : LoggingConfig := ⟨"info", false⟩

/-- The configuration of an empty document. -/
def Config.default : Config :=
  ⟨DatabaseConfig.default, ArtifactConfig.default, LoggingConfig.default⟩

namespace Toml

/-- The fields that a section gives, by name. A date is a section without any. -/
def fields? (names : List String) : Toml → Option (List (String × Toml))
  | .table members => some members
  | .array items => some (names.zip items)
  | .moment _ => some []
  | _ => none

/-- A field of a section, or its default. -/
def field {α : Type} (fields : List (String × Toml)) (name : String) (read : Toml → Option α)
    (default : α) : Option α :=
  match fields.lookup name with
  | none => some default
  | some v => read v

/-- The text of a text. -/
def asText : Toml → Option String
  | .text s => some s
  | _ => none

/-- A truth value. -/
def asBool : Toml → Option Bool
  | .bool b => some b
  | _ => none

/-- An integer below `limit` that is not negative. -/
def asNatBelow (limit : Nat) : Toml → Option Nat
  | .integer i => if 0 ≤ i && i < limit then some i.toNat else none
  | _ => none

end Toml

open Toml

/-- The first number that is no port, `2^16`. -/
def portLimit : Nat := 65536

/-- The first number of seconds that is not accepted, `2^64`. -/
def graceLimit : Nat := 18446744073709551616

/-- Reads the section on the database. -/
def DatabaseConfig.ofToml? (v : Toml) : Option DatabaseConfig := do
  let fields ← fields? ["port", "require_tls", "verify_tls"] v
  let port ← field fields "port" (asNatBelow portLimit) DatabaseConfig.default.port
  let requireTls ← field fields "require_tls" asBool DatabaseConfig.default.requireTls
  let verifyTls ← field fields "verify_tls" asBool DatabaseConfig.default.verifyTls
  some ⟨port, requireTls, verifyTls⟩

/-- Reads the section on artifacts. -/
def ArtifactConfig.ofToml? (v : Toml) : Option ArtifactConfig := do
  let fields ← fields? ["bucket", "region", "upload_grace_secs"] v
  let bucket ← field fields "bucket" asText ArtifactConfig.default.bucket
  let region ← field fields "region" asText ArtifactConfig.default.region
  let grace ← field fields "upload_grace_secs" (asNatBelow graceLimit)
    ArtifactConfig.default.uploadGraceSecs
  some ⟨bucket, region, grace⟩

/-- Reads the section on logging. -/
def LoggingConfig.ofToml? (v : Toml) : Option LoggingConfig := do
  let fields ← fields? ["filter", "json"] v
  let filter ← field fields "filter" asText LoggingConfig.default.filter
  let json ← field fields "json" asBool LoggingConfig.default.json
  some ⟨filter, json⟩

/-- Reads the sections of a document. -/
def Config.ofToml? (members : List (String × Toml)) : Option Config := do
  let database ← field members "database" DatabaseConfig.ofToml? DatabaseConfig.default
  let artifacts ← field members "artifacts" ArtifactConfig.ofToml? ArtifactConfig.default
  let logging ← field members "logging" LoggingConfig.ofToml? LoggingConfig.default
  some ⟨database, artifacts, logging⟩

/-- The configuration that the text of a document denotes. -/
def Config.read (cs : List Char) : Option Config := (Toml.read cs).bind Config.ofToml?

/-- A configuration as JSON. -/
def Config.toJson (c : Config) : Json :=
  .object [
    ("database", .object [("port", .nat c.database.port),
      ("require_tls", .bool c.database.requireTls), ("verify_tls", .bool c.database.verifyTls)]),
    ("artifacts", .object [("bucket", .text c.artifacts.bucket),
      ("region", .text c.artifacts.region),
      ("upload_grace_secs", .nat c.artifacts.uploadGraceSecs)]),
    ("logging", .object [("filter", .text c.logging.filter), ("json", .bool c.logging.json)])]

end RunJournal
