import RunJournal.Disk.Basic

/-!
# A disk with few files

A working directory that holds some files, the directories they lie in, and nothing else. Paths
are walked component by component, so that `d/none/../x` fails when `d/none` does not exist; what
lies outside the working directory is empty.
-/

namespace RunJournal

/-- Files by their paths, each path as its components. -/
abbrev FileTree := List (List String × List UInt8)

/-- The tree of files with paths below the working directory. -/
def FileTree.ofFiles (files : List (String × List UInt8)) : FileTree :=
  files.map fun f => ((f.1.splitOn "/").filter (· != ""), f.2)

/-- Where a walk has come to: a place below the working directory, or somewhere outside it. -/
inductive Place where
  | inside (components : List String)
  | outside
deriving DecidableEq, Repr

/-- What is at a place. -/
def FileTree.entry? (tree : FileTree) : Place → Option Entry
  | .outside => some .directory
  | .inside components =>
    match tree.lookup components with
    | some contents => some (.file contents)
    | none =>
      if components.isEmpty || tree.any (fun f => components.isPrefixOf f.1) then some .directory
      else none

/-- The greatest number of bytes in a component of a path. -/
def maxNameSize : Nat := 255

/-- The number of bytes that a path stays below. -/
def pathSizeLimit : Nat := 4096

/-- The place that a component of a path leads to from a directory. -/
def FileTree.step (tree : FileTree) (place : Place) (component : String) :
    Except FileFault Place :=
  match tree.entry? place with
  | none => .error .notFound
  | some (.file _) => .error .notDirectory
  | some .directory =>
    if component = "" || component = "." then .ok place
    else if maxNameSize < component.utf8ByteSize then .error .nameTooLong
    else match place, component with
      | .outside, ".." => .ok .outside
      | .outside, _ => .error .notFound
      | .inside [], ".." => .ok .outside
      | .inside components, ".." => .ok (.inside components.dropLast)
      | .inside components, name => .ok (.inside (components ++ [name]))

/-- The disk with the files of a tree. -/
def FileTree.disk (tree : FileTree) : Disk := fun path => do
  if path.toList.contains '\x00' then .error .nul
  else if path = "" then .error .notFound
  else if pathSizeLimit ≤ path.utf8ByteSize then .error .nameTooLong
  else
    let start := if path.startsWith "/" then Place.outside else .inside []
    let place ← (path.splitOn "/").foldlM tree.step start
    match tree.entry? place with
    | some entry => .ok entry
    | none => .error .notFound

end RunJournal
