import SchemaPlan.Text.Basic

/-!
# Paths

Operations on the text of a path. Slashes stand between the parts; empty parts and single dots mean
nothing except at the start.
-/

namespace SchemaPlan.Path

/-- The parts of a path between its slashes. -/
def parts (path : String) : List String := Text.splitWhere (· == '/') path

/-- Parts that lead nowhere. -/
def isIdle (part : String) : Bool := part == "" || part == "."

/-- The parts that tell one path from another. A slash or a single dot at the start counts. -/
def components (path : String) : List String :=
  match parts path with
  | [""] => []
  | "" :: rest => "/" :: rest.filter (!isIdle ·)
  | "." :: rest => "." :: rest.filter (!isIdle ·)
  | all => all.filter (!isIdle ·)

/-- Whether two paths are made of the same components. -/
def same (a b : String) : Bool := components a == components b

/-- Whether a path starts at the root. -/
def isAbsolute (path : String) : Bool := Text.startsWith "/" path

/-- A path below a directory. A path that starts at the root stays as it is. -/
def join (directory path : String) : String :=
  if isAbsolute path then path
  else if directory.isEmpty || Text.endsWith "/" directory then directory ++ path
  else directory ++ "/" ++ path

/-- A list of parts, last part first, without the idle ones before the first part of the path. -/
def dropIdle : List String → List String
  | [] => []
  | [first] => [first]
  | part :: next :: rest => if isIdle part then dropIdle (next :: rest) else part :: next :: rest

/-- The directory of a file. -/
def parent (path : String) : String :=
  let above := dropIdle ((dropIdle (parts path).reverse).drop 1)
  if above == [""] then "/" else Text.joinWith "/" above.reverse

/-- The last part of a path. -/
def fileName (path : String) : String :=
  ((dropIdle (parts path).reverse).head?).getD ""

/-- A name with the text before its last dot and the text after it. A name without a dot, or with
nothing before its only dot, has no second part. -/
def splitName (name : String) : String × Option String :=
  let reversed := name.toList.reverse
  let after := reversed.takeWhile (· ≠ '.')
  match reversed.drop after.length with
  | _ :: [] => (name, none)
  | _ :: before => (String.ofList before.reverse, some (String.ofList after.reverse))
  | [] => (name, none)

/-- The last part of a path without its extension. -/
def stem (path : String) : String := (splitName (fileName path)).1

/-- The extension of the last part of a path. -/
def extension? (path : String) : Option String := (splitName (fileName path)).2

/-- Whether a path names a SQL script. -/
def isScript (path : String) : Bool :=
  (extension? path).any (Text.sameText · "sql")

end SchemaPlan.Path
