import RunJournal.Text.Utf8

/-!
# Files

A disk is anything that can be asked what is at a path. It answers with a directory, with the bytes
of a file, or with the fault that the path runs into; only a file can be read.
-/

namespace RunJournal

/-- Why a path leads to nothing that can be read. -/
inductive FileFault where
  | notFound
  | notDirectory
  | isDirectory
  | nameTooLong
  | denied
  /-- The path contains the character U+0000. -/
  | nul
deriving DecidableEq, Repr

/-- The wording of a fault. -/
def FileFault.message : FileFault → String
  | .notFound => "No such file or directory (os error 2)"
  | .notDirectory => "Not a directory (os error 20)"
  | .isDirectory => "Is a directory (os error 21)"
  | .nameTooLong => "File name too long (os error 36)"
  | .denied => "Permission denied (os error 13)"
  | .nul => "file name contained an unexpected NUL byte"

/-- What a path leads to. -/
inductive Entry where
  | directory
  | file (contents : List UInt8)
deriving DecidableEq, Repr

/-- What is at each path. -/
abbrev Disk := String → Except FileFault Entry

/-- The contents of what a path leads to. -/
def Entry.contents : Entry → Except FileFault (List UInt8)
  | .directory => .error .isDirectory
  | .file contents => .ok contents

/-- The contents of the file at a path. -/
def Disk.read (disk : Disk) (path : String) : Except FileFault (List UInt8) :=
  (disk path).bind Entry.contents

/-- The text of the file at a path; the inner answer is empty where its bytes are not UTF-8. -/
def Disk.readText (disk : Disk) (path : String) : Except FileFault (Option (List Char)) :=
  (disk.read path).map fun bytes => (Text.decodeUtf8 bytes).toOption

end RunJournal
