import SchemaPlan.Text.LowerCase
import SchemaPlan.Text.Basic

/-!
# Names of schema objects

Bare identifiers and their quotes, dotted names with up to three meaningful parts, and the keys
under which names are compared.
-/

namespace SchemaPlan.Sql

/-! ## Identifiers -/

/-- An identifier without surrounding blanks and without quotes at its ends. -/
def unquote (text : String) : String :=
  Text.trimWhere (fun c => c == '[' || c == ']' || c == '"') (Text.trim text)

/-- A variable name without its sign: one leading `@` is dropped. -/
def withoutSign (name : String) : String :=
  (Text.after? "@" name).getD name

/-- Local variables start with a single `@`; the functions written `@@name` are none. -/
def isVariable (name : String) : Bool :=
  Text.startsWith "@" name && !Text.startsWith "@@" name

/-- The key under which a dotted name is compared: its unquoted parts in lower case. -/
def identifierKey (name : String) : String :=
  Text.lower (Text.joinWith "." ((Text.splitWhere (· == '.') name).map unquote))

/-! ## Dotted names -/

/-- A dotted object name. -/
structure QualifiedName where
  database : Option String
  schema : Option String
  name : String
deriving Repr, DecidableEq, Inhabited

namespace QualifiedName

/-- A part that is not empty. -/
def part? (text : String) : Option String :=
  if text = "" then none else some text

/-- The name with the given parts, the last of which may not be empty. Of four parts the first,
which names a server, is dropped; more than four name nothing. -/
def ofParts? : List String → Option QualifiedName
  | [n] => (part? n).map fun name => ⟨none, none, name⟩
  | [s, n] => (part? n).map fun name => ⟨none, part? s, name⟩
  | [d, s, n] => (part? n).map fun name => ⟨part? d, part? s, name⟩
  | [_, d, s, n] => (part? n).map fun name => ⟨part? d, part? s, name⟩
  | _ => none

/-- A name of one part. -/
def unqualified (name : String) : QualifiedName := ⟨none, none, name⟩

/-- The parts that are present, from the outermost. -/
def parts (n : QualifiedName) : List String :=
  n.database.toList ++ n.schema.toList ++ [n.name]

/-- The name with every part in brackets. -/
def bracketed (n : QualifiedName) : String :=
  Text.joinWith "." (n.parts.map fun part => "[" ++ part ++ "]")

/-- The name as written, without brackets. -/
def dotted (n : QualifiedName) : String :=
  Text.joinWith "." n.parts

end QualifiedName

end SchemaPlan.Sql
