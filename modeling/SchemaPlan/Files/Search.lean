import SchemaPlan.Files.Pattern
import SchemaPlan.Files.Tree
import SchemaPlan.LoadError

/-!
# Finding scripts

Scripts are found below a directory, by the paths that a caller gives, or by a pattern.
-/

namespace SchemaPlan.Path

variable {m : Type → Type} [Monad m]

/-! ## Directories -/

/-- Directories that hold what a build makes. -/
def isBuildOutput (name : String) : Bool := Text.sameText name "bin" || Text.sameText name "obj"

/-- The scripts below a directory in order, without what builds make. -/
def scripts (fs : FileSystem m) (directory : String) : m (List String) := do
  let wanted := (← fs.below directory).filter fun descendant =>
    descendant.kind == .file && isScript (descendant.names.getLast?.getD "") &&
      !descendant.names.any isBuildOutput
  return wanted.map fun descendant => descendant.names.foldl join directory

/-- The scripts that paths stand for. A file stands for itself, whatever its name, and a directory
for the scripts below it. -/
def discover (fs : FileSystem m) : List String → ExceptT LoadError m (List String)
  | [] => return []
  | path :: rest => do
    let here ← match ← fs.kind? path with
      | some .directory => (scripts fs path : m (List String))
      | some .file => pure [path]
      | none => throw (.missingPath path)
    return here ++ (← discover fs rest)

/-! ## Patterns -/

/-- A path below a directory; what is below the current directory goes without its dot. -/
def inside (directory name : String) : String :=
  if components directory == ["."] then name else join directory name

/-- The path of something below a directory. -/
def descendantPath (directory : String) (descendant : Descendant) : String :=
  descendant.names.foldl inside directory

/-- What the first characters of a pattern of one part say about single and double dots, which no
directory lists. -/
def dotNames (pattern : Pattern) : List String :=
  match pattern with
  | .literal '.' :: _ => ["..", "."].filter pattern.matches
  | _ => []

/-- What a row of patterns, one for each part of a path, stands for below a path. Names are taken
in order, and of what is at any depth a directory comes before its entries. -/
def expand (fs : FileSystem m) (onlyDirectories : Bool) : List Pattern → String → m (List String)
  | [], path => do
    if onlyDirectories && (← fs.kind? path) != some .directory then return [] else return [path]
  | pattern :: rest, path => do
    match pattern.literal? with
    | some name =>
      let next := inside path name
      let isThere ← if name = "." || name = ".." then pure ((← fs.kind? path) == some .directory)
        else pure (← fs.kind? next).isSome
      if isThere then expand fs onlyDirectories rest next else return []
    | none =>
      if pattern == [.anyDirectories] then
        let found ← fs.below path
        match rest with
        | [] => return (found.filter (·.kind == .directory)).map (descendantPath path)
        | last :: more =>
          let named := found.filter fun entry => last.matches (entry.names.getLast?.getD "")
          let next := named.map (descendantPath path)
          return (← next.mapM (expand fs onlyDirectories more)).flatten
      else
        let dots := (dotNames pattern).map (join path)
        let named := (← fs.entries path).filter fun entry => pattern.matches entry.1
        let next := dots ++ named.map fun entry => inside path entry.1
        return (← next.mapM (expand fs onlyDirectories rest)).flatten

/-- Patterns with neighbours that stand for any number of directories made one. -/
def mergeDirectories : List Pattern → List Pattern
  | first :: second :: rest =>
    if first == [.anyDirectories] && second == [.anyDirectories] then
      mergeDirectories (second :: rest)
    else first :: mergeDirectories (second :: rest)
  | patterns => patterns

/-- The paths that a pattern matches. A pattern that is not well formed matches none. -/
def glob (fs : FileSystem m) (text : String) : m (List String) := do
  let written := parts text
  let onlyDirectories := written.getLast? == some ""
  let named := if onlyDirectories then written.dropLast else written
  let (start, named) :=
    if isAbsolute text then ("/", named.dropWhile (·.isEmpty)) else (".", named)
  match Pattern.ofText? text, named.mapM Pattern.ofText? with
  | some _, some patterns => expand fs onlyDirectories (mergeDirectories patterns) start
  | _, _ => return []

end SchemaPlan.Path
