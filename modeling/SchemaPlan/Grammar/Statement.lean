import SchemaPlan.Grammar.Session

/-!
# Statements

The statements of a text with semicolons between them. Tables, views and constraints that are
added to a table mean something for the schema; of every other statement the first words of its
written form are kept.

A text is read to its end, except that the word `END` after a statement ends it.
-/

namespace SchemaPlan.Grammar

open SchemaPlan.Sql SchemaPlan.Query

/-! ## Meaning -/

/-- A statement of no interest to the schema, described by its first three words. -/
def described (pieces : List Piece) : List Statement :=
  [.other (Text.joinWith " " ((Text.words (piecesText pieces)).take 3))]

/-- What a written form means. -/
def describing (parser : Parser (List Piece)) : Parser (List Statement) := do
  return described (← parser)

/-! ## Statements by their first words -/

/-- A table whose rows are stored elsewhere. -/
def createExternalTable (n : Nested) : Parser (List Statement) := do
  expectKeyword "TABLE"
  discard (keywords? ["IF", "NOT", "EXISTS"])
  let name ← objectName
  let found ← elements n
  if ← keyword? "LOCATION" then discard plainText
  options n "TBLPROPERTIES"
  match QualifiedName.ofParts? (identValues name) with
  | some name =>
    return [.table { name, columns := columnsOf found, constraints := constraintsOf found }]
  | none => return []

/-- A statement that creates something, after its first word. `block` reads the statements of a
procedure. -/
def creation (n : Nested) (block : Parser Unit) : Parser (List Statement) := do
  let replaces ← keywords? ["OR", "REPLACE"]
  discard (keywords? ["OR", "ALTER"])
  discard (keyword? "LOCAL")
  discard (keyword? "GLOBAL")
  discard (keyword? "TRANSIENT")
  let temporary := if (← oneOf? ["TEMP", "TEMPORARY"]).isSome then "TEMPORARY " else ""
  if ← keyword? "TABLE" then createTable n
  else if ← seesOneOf ["MATERIALIZED", "VIEW"] then createView n
  else if ← keyword? "EXTERNAL" then createExternalTable n
  else if replaces then refuse
  else if ← keyword? "INDEX" then describing (createIndex n "CREATE INDEX ")
  else if ← keywords? ["UNIQUE", "INDEX"] then describing (createIndex n "CREATE UNIQUE INDEX ")
  else if ← keyword? "SCHEMA" then describing createSchema
  else if ← keyword? "DATABASE" then describing createDatabase
  else if ← keyword? "ROLE" then describing createRole
  else if ← keyword? "SEQUENCE" then
    describing (createSequence n ("CREATE " ++ temporary ++ "SEQUENCE "))
  else if ← keyword? "TYPE" then describing (createType n)
  else if ← keyword? "PROCEDURE" then
    let name ← objectName
    procedureParameters n
    expectKeywords ["AS", "BEGIN"]
    block
    expectKeyword "END"
    return described [.text ("CREATE PROCEDURE " ++ nameText name)]
  else refuse

/-- A statement that changes an object, after its first word. -/
def alteration (n : Nested) : Parser (List Statement) := do
  match ← expectOneOf ["VIEW", "TABLE", "INDEX", "ROLE"] with
  | "VIEW" => describing (alterView n)
  | "TABLE" => alterTable n
  | "INDEX" => describing alterIndex
  | _ => describing alterRole

/-- The statement that a word, given in capitals, starts; the word has been read. -/
def afterFirstWord? (n : Nested) (block : Parser Unit) (word : String) :
    Option (Parser (List Statement)) :=
  match word with
  | "CREATE" => some (creation n block)
  | "ALTER" => some (alteration n)
  | "DROP" => some (describing dropObjects)
  | "INSERT" => some (describing (insertion n))
  | "UPDATE" => some (describing (update n))
  | "DELETE" => some (describing (deletion n))
  | "MERGE" => some (describing (merge n))
  | "TRUNCATE" => some (describing (truncation n))
  | "SET" => some (describing (setting n))
  | "USE" => some (describing useDatabase)
  | "DECLARE" => some (describing (declarations n))
  | "RAISERROR" => some (describing (message n))
  | "EXEC" => some (describing (execution n))
  | "EXECUTE" => some (describing (execution n))
  | "CALL" => some (describing (call n))
  | "KILL" => some (describing kill)
  | "FETCH" => some (describing fetch)
  | "CLOSE" => some (describing close)
  | "DEALLOCATE" => some (describing deallocation)
  | "GRANT" => some (describing grant)
  | "REVOKE" => some (describing revocation)
  | "BEGIN" => some (describing beginBlock)
  | "START" => some (describing startTransaction)
  | "END" => some (describing endBlock)
  | "COMMIT" => some (describing commit)
  | "ROLLBACK" => some (describing rollback)
  | "SAVEPOINT" => some (describing savepoint)
  | "RELEASE" => some (describing release)
  | _ => none

/-- A statement. -/
def statement (n : Nested) (block : Parser Unit) : Parser (List Statement) := do
  let isGroup ← seesMark .openParen
  if isGroup || (← seesOneOf ["SELECT", "WITH", "VALUES", "FROM"]) then
    return described [.query (← n.query)]
  match (← peek?).bind Token.keyword? with
  | some word =>
    match afterFirstWord? n block word with
    | some rest =>
      skip
      rest
    | none => refuse
  | none => refuse

/-- A statement with those after it: what they mean, and whether a delimiter has to follow. -/
def statementAfter (one : Parser (List Statement)) (found : List Statement × Bool) :
    Parser (Option (List Statement × Bool)) := do
  if ← mark? .semicolon then return some (found.1, false)
  match ← peek? with
  | none => return none
  | some token =>
    if found.2 then
      if token.isKeyword "END" then return none else refuse
    else return some (found.1 ++ (← one), true)

/-- Statements with semicolons between them. -/
def statementsOf (one : Parser (List Statement)) : Parser (List Statement) := do
  return (← iterate (statementAfter one) ([], false)).1

/-- Statements within a depth that remains. Every level of blocks takes at least one token, so the
number of tokens bounds `fuel`. -/
def block (fuel depth : Nat) : Parser (List Statement) :=
  match fuel with
  | 0 => refuse
  | fuel + 1 =>
    statementsOf (guarded depth fun rest => do
      let tokens ← get
      statement (grammarFor tokens.length rest) (discard (block fuel rest)))

/-- The statements of a text, or why it has none. -/
def parseStatements (text : String) : Except SyntaxError (List Statement) := do
  match scan text with
  | .error failure => throw (.unexpected (some failure.line))
  | .ok placed =>
    let tokens := significantTokens placed
    let (found, _) ← block (tokens.length + 1) nestingLimit tokens
    return found

end SchemaPlan.Grammar
