import SchemaPlan.Definition.Procedure
import SchemaPlan.Definition.Table
import SchemaPlan.Grammar.Statement
import SchemaPlan.LoadError
import SchemaPlan.Script.Batch

/-!
# Statements of a script

Procedures and `CREATE TYPE` are read token by token. Every other batch is read by the grammar
first; where that fails, tables, views and added constraints are read token by token, and batches
that cannot matter to the schema are kept by their first words. What is left is an error.
-/

namespace SchemaPlan

open SchemaPlan.Sql

/-- A statement with the file, the first line and the text of its batch. -/
structure PlacedStatement where
  file : String
  line : Nat
  text : String
  statement : Statement

/-! ## First words -/

/-- Up to `count` words that come next, quoted or not, in capitals. -/
def wordsAhead : Nat → List Token → List String
  | 0, _ => []
  | _ + 1, [] => []
  | count + 1, .word text _ :: rest =>
    Text.asciiUpper text :: wordsAhead count (rest.dropWhile Token.isBlank)
  | _ + 1, _ => []

/-- The first four words of a text; a text without tokens has none. -/
def leadingWords (text : String) : List String :=
  match scan text with
  | .ok tokens => wordsAhead 4 ((tokens.map (·.token)).dropWhile Token.isBlank)
  | .error _ => []

/-- The words for a procedure. -/
def procedureWords : List String := ["PROC", "PROCEDURE"]

/-- How a batch is read. -/
inductive BatchKind where
  | procedure | userType | general
deriving Repr, DecidableEq, Inhabited

/-- The kind of a batch by its first words. -/
def batchKind : List String → BatchKind
  | "CREATE" :: "OR" :: rest =>
    -- The word between `OR` and the kind is not looked at here.
    if rest[1]?.any procedureWords.contains then .procedure else .general
  | "CREATE" :: word :: _ =>
    if procedureWords.contains word then .procedure
    else if word = "TYPE" then .userType
    else .general
  | "ALTER" :: word :: _ => if procedureWords.contains word then .procedure else .general
  | _ => .general

/-- Words that start a batch which cannot matter to the schema. -/
def ignoredStarters : List String :=
  ["CREATE", "ALTER", "DROP", "GRANT", "DENY", "REVOKE", "SET", "PRINT", "EXEC", "EXECUTE", "USE",
   "INSERT", "UPDATE", "DELETE", "MERGE", "IF", "DECLARE", "BEGIN", "ENABLE", "DISABLE", "SETUSER",
   "RAISERROR", "THROW", "TRUNCATE"]

/-! ## Batches -/

/-- The statement by which a batch of no interest is kept. -/
def ignored? (words : List String) : Option (List Statement) :=
  match words with
  | first :: _ =>
    if ignoredStarters.contains first then
      some [.other (Text.joinWith " " (words.take 3))]
    else none
  | [] => none

/-- The statements of a batch that does not follow the grammar. -/
def readLoosely? (words : List String) (text : String) : Option (List Statement) :=
  let view? := (Reading.run? Definition.view text).map fun definition => [Statement.view definition]
  match words with
  | "CREATE" :: "TABLE" :: _ =>
    (Reading.run? Definition.table text).map fun definition => [.table definition]
  | "CREATE" :: "VIEW" :: _ => view?
  | "CREATE" :: "OR" :: _ :: "VIEW" :: _ => view?
  | "ALTER" :: "TABLE" :: _ =>
    match Reading.run? Definition.addedConstraints text with
    | some (table, constraints) => some (constraints.map (Statement.addConstraint table))
    -- A table can be altered in ways that add no constraint.
    | none => ignored? words
  | _ => ignored? words

/-- The statements of a batch, or the line and the reason of its fault. -/
def readBatch (text : String) : Except (Nat × String) (List Statement) :=
  let words := leadingWords text
  match batchKind words with
  | .procedure =>
    match Reading.run? Definition.procedure text with
    | some definition => .ok [.procedure definition]
    | none => .error (1, "unrecognised procedure header")
  | .userType =>
    match Reading.run? Definition.userType text with
    | some (.table definition) => .ok [.tableType definition]
    | some (.scalar definition) => .ok [.scalarType definition]
    | none => .error (1, "unrecognised CREATE TYPE")
  | .general =>
    match Grammar.parseStatements text with
    | .ok statements => .ok statements
    | .error failure =>
      match readLoosely? words text with
      | some statements => .ok statements
      | none => .error (failure.line, failure.message)

/-! ## Scripts -/

/-- The statements of a batch of a file. A batch of blanks has none. -/
def Batch.statements (file : String) (batch : Batch) : Except LoadError (List PlacedStatement) :=
  let text := Text.trim batch.text
  if text.isEmpty then .ok []
  else match readBatch text with
    | .ok statements =>
      .ok (statements.map fun statement => { file, line := batch.line, text, statement })
    | .error (line, reason) =>
      -- Both lines are counted from one, and a fault may have none.
      .error (.malformedScript file (batch.line + max 1 line - 1) reason)

/-- The statements of a script, which may start with a byte order mark. -/
def statementsOfScript (file text : String) : Except LoadError (List PlacedStatement) := do
  let content := (Text.after? "\ufeff" text).getD text
  return (← (Batch.split content).mapM (Batch.statements file)).flatten

end SchemaPlan
