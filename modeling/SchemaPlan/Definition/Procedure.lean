import SchemaPlan.Definition.View
import SchemaPlan.Sql.Body

/-!
# Procedure definitions

The head of a procedure gives its name, parameters and options. Its body, everything after `AS`,
is cut into statements, and each select among them is read as a query.
-/

namespace SchemaPlan.Definition

open SchemaPlan.Sql SchemaPlan.Sql.Reading

/-- The name of a procedure and the number of its group, if one follows a semicolon. -/
def procedureName : Reading QualifiedName := do
  let name ← qualifiedName
  let checkpoint ← position
  skipBlanks
  if ← accepts (·.isMark .semicolon) then
    skipBlanks
    discard wholeNumber
  else moveTo checkpoint
  return name

/-- Whether a token is the name of a variable. -/
def isVariableWord : Token → Bool
  | .word text .bare => Text.startsWith "@" text
  | _ => false

/-- The words that end the default value of a parameter. -/
def endsDefault (token : Token) : Bool :=
  token.isMark .comma || token.isMark .closeParen ||
    ["OUTPUT", "OUT", "READONLY", "AS", "WITH", "FOR"].any token.isBareWord

/-- Move to the end of a default value. -/
def skipDefault : Nat → Reading Unit
  | 0 => return
  | fuel + 1 => do
    match (← get).current? with
    | none => return
    | some token =>
      if endsDefault token then return
      else if token.isMark .openParen then
        skipGroup
        skipDefault fuel
      else
        advance
        skipDefault fuel

/-- The text of a default value; nothing if it is empty. -/
def defaultValue : Reading (Option String) := do
  let start ← position
  skipDefault (← get).left
  let cursor ← get
  let text := cursor.slice start cursor.pos
  return if text = "" then none else some text

/-- The parameter with the properties that follow its type. -/
def withProperties : Nat → ParameterDefinition → Reading ParameterDefinition
  | 0, parameter => return parameter
  | fuel + 1, parameter => do
    skipBlanks
    if ← accepts (·.isMark .equal) then
      skipBlanks
      withProperties fuel { parameter with defaultValue := ← defaultValue }
    else if ← accepts (·.isBareWord "READONLY") then
      withProperties fuel { parameter with isReadonly := true }
    else if ← accepts fun token => token.isBareWord "OUTPUT" || token.isBareWord "OUT" then
      withProperties fuel { parameter with isOutput := true }
    -- Properties that make no difference to a caller.
    else if ← accepts fun token => token.isBareWord "VARYING" || token.isKeyword "NULL" then
      withProperties fuel parameter
    else if ← accepts (·.isKeyword "NOT") then
      skipBlanks
      expect (·.isKeyword "NULL")
      withProperties fuel parameter
    else return parameter

/-- A parameter. -/
def parameter : Reading ParameterDefinition := do
  let name ← identifier
  skipBlanks
  if ← accepts (·.isKeyword "AS") then skipBlanks
  let type ← declaredType
  withProperties ((← get).left + 1) { name := withoutSign name, type }

/-- Parameters with commas between them; a comma may stand last. -/
def parameters : Nat → Reading (List ParameterDefinition)
  | 0 => return []
  | fuel + 1 => do
    skipBlanks
    if !(← sees isVariableWord) then return []
    let first ← parameter
    skipBlanks
    if ← accepts (·.isMark .comma) then return first :: (← parameters fuel)
    else return [first]

/-- The parameters of a procedure, with or without parentheses around them. -/
def parameterList : Reading (List ParameterDefinition) := do
  skipBlanks
  let grouped ← accepts (·.isMark .openParen)
  let found ← parameters ((← get).left + 1)
  if grouped then
    skipBlanks
    expect (·.isMark .closeParen)
  return found

/-- Options of a procedure with commas between them. -/
def procedureOptions : Nat → Reading Unit
  | 0 => failure
  | fuel + 1 => do
    skipBlanks
    if ← accepts fun token => token.isBareWord "EXECUTE" || token.isBareWord "EXEC" then
      skipBlanks
      expect (·.isKeyword "AS")
      skipBlanks
      advance
    else discard identifier
    skipBlanks
    if ← accepts (·.isMark .comma) then procedureOptions fuel

/-- The options of a procedure and the mark of one that serves replication. -/
def skipOptions : Reading Unit := do
  skipBlanks
  if ← accepts (·.isKeyword "WITH") then procedureOptions ((← get).left + 1)
  skipBlanks
  if ← accepts (·.isKeyword "FOR") then
    skipBlanks
    expect (·.isBareWord "REPLICATION")

/-- The selects of a body that starts at the cursor. -/
def bodySelects (cursor : Cursor) : List BodySelect :=
  ((cursor.statements cursor.pos).filter (·.kind == .select)).map fun statement =>
    let text := cursor.slice statement.start statement.stop
    { text, line := cursor.lineAt statement.start, query := Grammar.parseQuery text }

/-- A `CREATE PROCEDURE` or `ALTER PROCEDURE`. -/
def procedure : Reading ProcedureDefinition := do
  definitionStart
  if !(← accepts (·.isKeyword "PROCEDURE")) then expect (·.isBareWord "PROC")
  skipBlanks
  let name ← procedureName
  let parameters ← parameterList
  skipOptions
  skipBlanks
  expect (·.isKeyword "AS")
  return { name, parameters, selects := bodySelects (← get) }

end SchemaPlan.Definition
