import SchemaPlan.Definition.Column

/-!
# Constraint definitions

Constraints of a table and constraints that are added to one. Keys are read in full; what follows
the columns of a key, and every other constraint, is passed over up to the next comma or closing
parenthesis.
-/

namespace SchemaPlan.Definition

open SchemaPlan.Sql SchemaPlan.Sql.Reading

/-- The columns of a primary key, after its first word. -/
def keyColumns : Reading (List String) := do
  skipBlanks
  expect (·.isKeyword "KEY")
  skipBlanks
  if (← sees (·.isKeyword "CLUSTERED")) || (← sees (·.isBareWord "NONCLUSTERED")) then
    advance
    skipBlanks
  identifierList

/-- The columns of a foreign key and what they refer to, after its first word. -/
def foreignColumns : Reading (List String × ColumnReference) := do
  skipBlanks
  expect (·.isKeyword "KEY")
  skipBlanks
  let columns ← identifierList
  skipBlanks
  expect (·.isKeyword "REFERENCES")
  skipBlanks
  return (columns, ← referencedColumns)

/-- The words that start a constraint without a key. -/
def startsPlainConstraint (token : Token) : Bool :=
  ["UNIQUE", "CHECK", "DEFAULT", "INDEX"].any token.isKeyword || token.isBareWord "PERIOD"

/-- The name of a constraint, if one is written. -/
def constraintName : Reading (Option String) := do
  if ← accepts (·.isKeyword "CONSTRAINT") then
    skipBlanks
    let name ← identifier
    skipBlanks
    return some name
  else return none

/-- A constraint up to the next comma or closing parenthesis of its level. -/
def constraint : Reading ConstraintDefinition := do
  skipBlanks
  let name ← constraintName
  let definition ←
    if ← accepts (·.isKeyword "PRIMARY") then pure (.primaryKey name (← keyColumns))
    else do
      if ← accepts (·.isKeyword "FOREIGN") then
        let (columns, references) ← foreignColumns
        pure (.foreignKey name columns references)
      else do
        if ← sees startsPlainConstraint then pure (.other name) else failure
  -- Options of the constraint, whatever they are.
  skipToDelimiter
  return definition

/-- Constraints with commas between them. -/
def constraints : Nat → Reading (List ConstraintDefinition)
  | 0 => failure
  | fuel + 1 => do
    let first ← constraint
    skipBlanks
    if ← accepts (·.isMark .comma) then return first :: (← constraints fuel)
    else return [first]

/-- The constraints that an `ALTER TABLE` adds, with the table. -/
def addedConstraints : Reading (QualifiedName × List ConstraintDefinition) := do
  skipBlanks
  expect (·.isKeyword "ALTER")
  skipBlanks
  expect (·.isKeyword "TABLE")
  skipBlanks
  let table ← qualifiedName
  skipBlanks
  if ← accepts (·.isKeyword "WITH") then
    skipBlanks
    if (← sees (·.isKeyword "CHECK")) || (← sees (·.isBareWord "NOCHECK")) then
      advance
      skipBlanks
  expect (·.isKeyword "ADD")
  return (table, ← constraints ((← get).left + 1))

end SchemaPlan.Definition
