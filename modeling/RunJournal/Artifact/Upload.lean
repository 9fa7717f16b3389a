import RunJournal.Artifact.ObjectPath
import RunJournal.Disk.Basic

/-!
# Uploads

An upload puts the contents of a file into the bucket under a key. It fails when the file cannot be
read; it is then noted as a failure and leaves the bucket as it was.

What a bucket keeps objects under are the paths of their keys (`objectPath`). An upload itself, and
the note of its failure, go by the key as it was given.
-/

namespace RunJournal

/-- Objects by path, in increasing order of paths. -/
abbrev Bucket := List (String × List UInt8)

/-- Puts an object under a path; an object that was there is replaced. -/
def Bucket.putAt (path : String) (contents : List UInt8) : Bucket → Bucket
  | [] => [(path, contents)]
  | (p, c) :: rest =>
    if path < p then (path, contents) :: (p, c) :: rest
    else if path = p then (path, contents) :: rest
    else (p, c) :: Bucket.putAt path contents rest

/-- Puts the object with a key, which is kept under the path of the key. -/
def Bucket.put (key : String) (contents : List UInt8) (bucket : Bucket) : Bucket :=
  bucket.putAt (objectPath key) contents

/-- What all objects are kept under, in increasing order. -/
def Bucket.keys (bucket : Bucket) : List String := bucket.map Prod.fst

/-- The kinds of artifact. -/
inductive ArtifactKind where
  | screenshot
  | video
deriving DecidableEq, Repr

/-- The name of a kind of artifact. -/
def ArtifactKind.name : ArtifactKind → String
  | .screenshot => "screenshot"
  | .video => "video"

/-- A file to be uploaded. -/
structure Upload where
  kind : ArtifactKind
  path : String
  key : String
deriving DecidableEq, Repr

/-- An upload whose file could not be read. -/
structure UploadFailure where
  upload : Upload
  cause : FileFault
deriving DecidableEq, Repr

/-- The wording of why the file at `path` was not uploaded. -/
def readFailureMessage (path : String) (cause : FileFault) : String :=
  "failed to read artifact " ++ path ++ ": " ++ cause.message

/-- What uploads have left behind: objects in the bucket, and failures. -/
structure Delivery where
  bucket : Bucket
  failures : List UploadFailure
deriving DecidableEq, Repr

/-- Nothing uploaded. -/
def Delivery.none : Delivery := ⟨[], []⟩

/-- Carries out an upload. -/
def Upload.run (disk : Disk) (u : Upload) (d : Delivery) : Delivery :=
  match disk.read u.path with
  | .ok contents => { d with bucket := d.bucket.put u.key contents }
  | .error cause => { d with failures := d.failures ++ [⟨u, cause⟩] }

/-- Carries out uploads one after the other. -/
def runUploads (disk : Disk) (uploads : List Upload) (d : Delivery) : Delivery :=
  uploads.foldl (fun d u => u.run disk d) d

end RunJournal
