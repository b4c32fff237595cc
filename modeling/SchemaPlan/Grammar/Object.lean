import SchemaPlan.Grammar.Table

/-!
# Other schema objects in the grammar

Indexes, schemas, databases, roles, sequences and types are read for their written form only, and
so are the statements that drop objects or rename them. Each rule starts after the words that
announce it.
-/

namespace SchemaPlan.Grammar

open SchemaPlan.Sql SchemaPlan.Query

/-- Keywords that may come next, with a blank after them. -/
def optionalWords (words : List String) : Parser String := do
  if ← keywords? words then return Text.joinWith " " words ++ " " else return ""

/-- The words that make a statement do nothing where the object exists already. -/
def unlessExists : Parser String := optionalWords ["IF", "NOT", "EXISTS"]

/-- The words that make a statement do nothing where the object is missing. -/
def ifExists : Parser String := optionalWords ["IF", "EXISTS"]

/-- Dotted names with commas between them. -/
def nameList : Parser String := do
  return Text.joinWith ", " ((← commaSeparated objectName).map nameText)

/-! ## Creation -/

/-- An index; `head` are the words before. -/
def createIndex (n : Nested) (head : String) : Parser (List Piece) := do
  discard (keyword? "CONCURRENTLY")
  let guard ← unlessExists
  let isNamed ← if guard.isEmpty then (do pure (!(← keyword? "ON"))) else pure true
  let name ←
    if isNamed then do
      let name ← objectName
      expectKeyword "ON"
      pure (nameText name ++ " ")
    else pure ""
  let table ← objectName
  let method ← if ← keyword? "USING" then (do pure (" USING " ++ (← identifier).text ++ " ")) else pure ""
  let columns ← parenthesized (orderItems n)
  if ← keyword? "INCLUDE" then discard columnList
  if ← keyword? "NULLS" then
    discard (keyword? "NOT")
    expectKeyword "DISTINCT"
  if ← keyword? "WHERE" then discard n.any
  return .text (head ++ guard ++ name ++ "ON " ++ nameText table ++ method ++ "(") :: columns ++
    [.text ")"]

/-- A schema. -/
def createSchema : Parser (List Piece) := do
  let guard ← unlessExists
  let name ← if ← seesKeyword "AUTHORIZATION" then pure "" else (do pure (nameText (← objectName)))
  let owner ←
    if ← keyword? "AUTHORIZATION" then (do pure (" AUTHORIZATION " ++ (← identifier).text))
    else pure ""
  return [.text ("CREATE SCHEMA " ++ guard ++ name ++ owner)]

/-- A database. -/
def createDatabase : Parser (List Piece) := do
  let guard ← unlessExists
  let name ← objectName
  let places ← many do
    match ← oneOf? ["LOCATION", "MANAGEDLOCATION"] with
    | some word => return some (" " ++ word ++ " '" ++ (← plainText) ++ "'")
    | none => return none
  return [.text ("CREATE DATABASE " ++ guard ++ nameText name ++ String.join places)]

/-- Roles. -/
def createRole : Parser (List Piece) := do
  let guard ← unlessExists
  let names ← nameList
  discard (keyword? "WITH")
  let owner ←
    if ← keyword? "AUTHORIZATION" then (do pure (" AUTHORIZATION " ++ nameText (← objectName)))
    else pure ""
  if ← seesKeyword "AUTHORIZATION" then refuseAnywhere
  return [.text ("CREATE ROLE " ++ guard ++ names ++ owner)]

/-- A sequence; `head` are the words before. -/
def createSequence (n : Nested) (head : String) : Parser (List Piece) := do
  let guard ← unlessExists
  let name ← objectName
  let type ← if ← keyword? "AS" then (do pure (" AS " ++ (← n.type).text)) else pure ""
  sequenceOptions
  if ← keywords? ["OWNED", "BY"] then discard objectName
  return [.text (head ++ guard ++ nameText name ++ type)]

/-- Constructs with commas between them in parentheses; a comma may stand last, and there may be
none. -/
def looseList (parser : Parser Unit) : Parser Unit := do
  if !(← mark? .openParen) then return
  let rest : Bool → Parser (Option Bool) := fun closed => do
    if closed then return none
    parser
    let comma ← mark? .comma
    if ← mark? .closeParen then return some true
    if comma then return some false else refuse
  if !(← mark? .closeParen) then discard (iterate rest false)

/-- A type of several attributes. -/
def createType (n : Nested) : Parser (List Piece) := do
  let name ← objectName
  expectKeyword "AS"
  if ← keyword? "ENUM" then
    let labels ← parenthesized do
      if ← seesMark .closeParen then pure [] else commaSeparated identifier
    return [.text ("CREATE TYPE " ++ nameText name ++ " AS ENUM (" ++
      Text.joinWith ", " (labels.map Ident.text) ++ ")")]
  looseList do
    discard identifier
    discard n.type
    if ← keyword? "COLLATE" then discard objectName
  return [.text ("CREATE TYPE " ++ nameText name ++ " AS ()")]

/-- The parameters of a procedure. -/
def procedureParameters (n : Nested) : Parser Unit :=
  looseList do
    if ← sees Token.isWord then
      discard identifier
      discard n.type

/-! ## Changes -/

/-- A change to a view. -/
def alterView (n : Nested) : Parser (List Piece) := do
  let name ← objectName
  let columns ← columnList?
  options n "WITH"
  expectKeyword "AS"
  let query ← n.query
  let columnText :=
    if columns.isEmpty then "" else " (" ++ Text.joinWith ", " (columns.map Ident.text) ++ ")"
  return [.text ("ALTER VIEW " ++ nameText name ++ columnText ++ " AS "), .query query]

/-- A change to an index. -/
def alterIndex : Parser (List Piece) := do
  let name ← objectName
  expectKeywords ["RENAME", "TO"]
  return [.text ("ALTER INDEX " ++ nameText name ++ " RENAME TO " ++ nameText (← objectName))]

/-- A change to a role. -/
def alterRole : Parser (List Piece) := do
  let name ← identifier
  let change ←
    if ← keywords? ["ADD", "MEMBER"] then pure "ADD MEMBER "
    else do
      if ← keywords? ["DROP", "MEMBER"] then pure "DROP MEMBER "
      else do
        if ← keywords? ["WITH", "NAME"] then do
          expectMark .equal
          pure "WITH NAME = "
        else refuse
  return [.text ("ALTER ROLE " ++ name.text ++ " " ++ change ++ (← identifier).text)]

/-! ## Removal -/

/-- The kinds of objects that are dropped by their names. -/
def droppedKinds : List String :=
  ["TABLE", "VIEW", "INDEX", "ROLE", "SCHEMA", "DATABASE", "SEQUENCE", "STAGE", "TYPE"]

/-- A routine by its name, with empty parentheses after it or none. -/
def routineName : Parser String := do
  let name ← objectName
  if ← mark? .openParen then expectMark .closeParen
  return nameText name

/-- The removal of objects. -/
def dropObjects : Parser (List Piece) := do
  match ← oneOf? ("FUNCTION" :: "PROCEDURE" :: droppedKinds) with
  | none => refuse
  | some kind =>
    let guard ← ifExists
    let head := "DROP " ++ kind ++ " " ++ guard
    if droppedKinds.contains kind then
      let names ← nameList
      let cascades ← keyword? "CASCADE"
      let restricts ← keyword? "RESTRICT"
      let purges ← keyword? "PURGE"
      if cascades && restricts then refuseAnywhere
      if kind == "ROLE" && (cascades || restricts || purges) then refuseAnywhere
      return [.text (head ++ names)]
    else
      let names ← commaSeparated routineName
      dropBehavior
      return [.text (head ++ Text.joinWith ", " names)]

end SchemaPlan.Grammar
