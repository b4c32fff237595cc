import SchemaPlan.Definition.Basic
import SchemaPlan.Sql.Cursor

/-!
# Column definitions

A column is a name and a type followed by modifiers in any order, or a name and a computed
expression. Words that mean nothing here are passed over; the first token that is neither a
modifier nor a word ends the definition.
-/

namespace SchemaPlan.Definition

open SchemaPlan.Sql SchemaPlan.Sql.Reading

/-- Move over an argument list in parentheses, if one comes next. -/
def skipArguments : Reading Unit := do
  skipBlanks
  skipGroup

/-- Move over the kind of an index and its argument list. -/
def skipClustering : Reading Unit := do
  skipBlanks
  if (← sees (·.isKeyword "CLUSTERED")) || (← sees (·.isBareWord "NONCLUSTERED")) then advance
  skipArguments

/-- Move over the value of a default: a group in parentheses, or a token with an optional sign and
an optional argument list. -/
def skipDefaultValue : Reading Unit := do
  skipBlanks
  if ← sees (·.isMark .openParen) then skipGroup
  else
    if (← sees (·.isMark .minus)) || (← sees (·.isMark .plus)) then
      advance
      skipBlanks
    advance
    skipArguments

/-- Move over what a foreign key does when its target changes. -/
def skipReferentialAction : Reading Unit := do
  skipBlanks
  if (← sees (·.isKeyword "DELETE")) || (← sees (·.isKeyword "UPDATE")) then
    advance
    skipBlanks
  if ← accepts fun token => token.isKeyword "NO" || token.isKeyword "SET" then skipBlanks
  advance

/-- A table and an optional list of its columns. -/
def referencedColumns : Reading ColumnReference := do
  let table ← qualifiedName
  skipBlanks
  let columns ← if ← sees (·.isMark .openParen) then identifierList else pure []
  return { table, columns }

/-- The modifiers of a column, each named by its first word. -/
def columnModifiers : List String :=
  ["IDENTITY", "NOT", "NULL", "CONSTRAINT", "DEFAULT", "CHECK", "COLLATE", "PRIMARY", "UNIQUE",
   "FOREIGN", "REFERENCES", "ON", "WITH"]

/-- The rest of a modifier whose first word has been read, and the column with it. -/
def columnModifier (column : ColumnDefinition) (word : String) : Reading ColumnDefinition := do
  match word with
  | "IDENTITY" =>
    skipArguments
    return { column with isIdentity := true }
  | "NOT" =>
    skipBlanks
    if ← accepts (·.isKeyword "NULL") then return { column with nullability := some false }
    else return column
  -- A `NOT NULL` that has been read is not taken back.
  | "NULL" => return { column with nullability := column.nullability.or (some true) }
  | "CONSTRAINT" | "COLLATE" =>
    skipBlanks
    discard (attempt identifier)
    return column
  | "DEFAULT" =>
    skipDefaultValue
    return column
  | "PRIMARY" =>
    skipBlanks
    discard (accepts (·.isKeyword "KEY"))
    skipClustering
    return { column with isPrimaryKey := true }
  | "UNIQUE" =>
    skipClustering
    return column
  -- Only the words: what the key refers to is a modifier of its own.
  | "FOREIGN" =>
    skipBlanks
    discard (accepts (·.isKeyword "KEY"))
    return column
  | "REFERENCES" =>
    skipBlanks
    return { column with references := ← attempt referencedColumns }
  | "ON" =>
    skipReferentialAction
    return column
  | _ =>
    skipArguments
    return column

/-- The column with the modifiers that follow. Each takes a token, so the number of tokens left is
`fuel` enough. -/
def withModifiers : Nat → ColumnDefinition → Reading ColumnDefinition
  | 0, column => return column
  | fuel + 1, column => do
    skipBlanks
    match (← get).current? with
    | none => return column
    | some token =>
      match columnModifiers.find? token.isKeyword with
      | some word =>
        advance
        let column ← columnModifier column word
        withModifiers fuel column
      | none =>
        if token.isWord then
          advance
          withModifiers fuel column
        else return column

/-- A column definition. -/
def column : Reading ColumnDefinition := do
  skipBlanks
  let name ← identifier
  skipBlanks
  if ← accepts (·.isKeyword "AS") then
    skipBlanks
    -- A computed column has no type, so its expression has to stand in parentheses.
    if !(← sees (·.isMark .openParen)) then failure
    skipGroup
    withModifiers ((← get).left + 1) { name }
  else
    let type ← declaredType
    withModifiers ((← get).left + 1) { name, type := some type }

end SchemaPlan.Definition
