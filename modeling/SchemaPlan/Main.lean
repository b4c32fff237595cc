import SchemaPlan.CommandLine.Run

/-!
# Program

Answers questions about files from the disk, prints what a run leaves behind and exits with its
status.
-/

namespace SchemaPlan

/-- The kind of what a path leads to on the disk. -/
def diskKind? (path : String) : IO (Option PathKind) := do
  let place : IO.FS.DirEntry := ⟨path, ""⟩
  match ← place.root.metadata.toBaseIO with
  | .ok found =>
    match found.type with
    | .dir => return some .directory
    | .file => return some .file
    | _ => return none
  | .error _ => return none

/-- The names in a directory on the disk in order. -/
def diskNames (path : String) : IO (List String) := do
  let place : IO.FS.DirEntry := ⟨path, ""⟩
  match ← place.root.readDir.toBaseIO with
  | .ok found => return (found.toList.map (·.fileName)).mergeSort fun a b => a ≤ b
  | .error _ => return []

/-- The entries of a directory on the disk. -/
def diskEntries (path : String) : IO (List (String × PathKind)) := do
  let entries ← (← diskNames path).mapM fun name => do
    return (← diskKind? (Path.join path name)).map fun kind => (name, kind)
  return entries.filterMap id

/-- Whether a path on the disk is a link. -/
def isLink (path : String) : IO Bool := do
  let place : IO.FS.DirEntry := ⟨path, ""⟩
  match ← place.root.symlinkMetadata.toBaseIO with
  | .ok found => return found.type == .symlink
  | .error _ => return false

/-- All that is below a directory on the disk, which is reached by `names`. Links are not
followed. -/
partial def diskBelow (path : String) (names : List String) : IO (List Descendant) := do
  let below ← (← diskEntries path).mapM fun (name, kind) => do
    let here := Path.join path name
    let there := names ++ [name]
    if ← isLink here then return []
    let more ← if kind == .directory then diskBelow here there else pure []
    return ⟨there, kind⟩ :: more
  return below.flatten

/-- The outcome of work on the disk. -/
def diskResult {α : Type} (work : IO α) : IO (Except String α) := do
  match ← work.toBaseIO with
  | .ok value => return .ok value
  | .error e => return .error (toString e)

/-- The disk as a place where files are kept. -/
def disk : FileSystem IO where
  kind? := diskKind?
  read path := diskResult (IO.FS.readBinFile path)
  write path text := diskResult (IO.FS.writeFile path text)
  entries := diskEntries
  below path := diskBelow path []

end SchemaPlan

/-- Runs the program. -/
def main (arguments : List String) : IO UInt32 := do
  let outcome ← SchemaPlan.CommandLine.run SchemaPlan.disk arguments
  IO.print outcome.output
  for line in outcome.errors do
    IO.eprintln line
  return outcome.exitCode.toUInt32
