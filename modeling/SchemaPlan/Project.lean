import SchemaPlan.Files.Search
import SchemaPlan.Text.Encoding
import SchemaPlan.Xml.Tree

/-!
# Project files

A project file names the scripts of a database and its default schema. Without a list of scripts
the project holds every script below its directory.
-/

namespace SchemaPlan

/-- What a project file says. -/
structure Project where
  name : String
  defaultSchema : String
  /-- The scripts in the order in which they are found. -/
  scripts : List String
  directory : String
deriving Repr, DecidableEq, Inhabited

namespace Project

/-- The default schema that a document names, or `dbo`. -/
def schemaOf (document : Xml.Node) : String :=
  let text := ((document.named "DefaultSchema").head?.bind Xml.Node.text?).getD ""
  let trimmed := Text.trim text
  if trimmed.isEmpty then "dbo" else trimmed

/-- The values of an attribute of the items to build, with slashes in one direction. -/
def itemValues (document : Xml.Node) (key : String) : List String :=
  ((document.named "Build").filterMap (·.attribute? key)).map (Text.replaceChar '\\' "/")

variable {m : Type → Type} [Monad m]

/-- The scripts that an item includes. A pattern stands for what it matches, and a plain path for
what is there. -/
def included (fs : FileSystem m) (directory item : String) : m (List String) := do
  if Path.isPattern item then
    return (← Path.glob fs (Path.join directory item)).filter Path.isScript
  else if Text.endsWith ".sql" (Text.asciiLower item) then
    let path := Path.join directory item
    return if (← fs.kind? path).isSome then [path] else []
  else return []

/-- Whether an item removes a script. -/
def removes (directory item path : String) : Bool :=
  let full := Path.join directory item
  if Path.isPattern item then
    match Path.Pattern.ofText? full with
    | some pattern => pattern.matches path
    | none => false
  else Path.same path full

/-- The scripts of a document in a directory. -/
def scriptsOf (fs : FileSystem m) (directory : String) (document : Xml.Node) : m (List String) := do
  let includes := itemValues document "Include"
  let removals := itemValues document "Remove"
  let found ←
    if includes.isEmpty then Path.scripts fs directory
    else pure (← includes.mapM (included fs directory)).flatten
  return found.filter fun path => !removals.any (removes directory · path)

/-- The project of a file. -/
def read (fs : FileSystem m) (path : String) : ExceptT LoadError m Project := do
  let content ← match ← fs.read path with
    | .ok content => pure content
    | .error reason => throw (.unreadableProject path reason)
  let some text := Text.ofUtf8? content
    | throw (.unreadableProject path "the text is not well formed")
  let some document := Xml.parse? text
    | throw (.malformedProject path "the document is not well formed")
  let directory := Path.parent path
  let scripts ← (scriptsOf fs directory document : m (List String))
  return { name := Path.stem path, defaultSchema := schemaOf document, scripts, directory }

end Project

end SchemaPlan
