import SchemaPlan.Grammar.Object

/-!
# Statements of a session

Settings, variables, transactions, cursors, calls and permissions. None of them bears on the
schema, so they are read for their written form only. Each rule starts after its first word.
-/

namespace SchemaPlan.Grammar

open SchemaPlan.Sql SchemaPlan.Query

/-! ## Transactions -/

/-- The mode of a transaction, if one comes next. -/
def transactionMode? : Parser (Option String) := do
  if ← keywords? ["ISOLATION", "LEVEL"] then
    for level in [["READ", "UNCOMMITTED"], ["READ", "COMMITTED"], ["REPEATABLE", "READ"],
        ["SERIALIZABLE"], ["SNAPSHOT"]] do
      if ← keywords? level then return some ("ISOLATION LEVEL " ++ Text.joinWith " " level)
    refuse
  else if ← keywords? ["READ", "ONLY"] then return some "READ ONLY"
  else if ← keywords? ["READ", "WRITE"] then return some "READ WRITE"
  else return none

/-- The modes of a transaction with optional commas between them, each with a blank before it. -/
def transactionModes : Parser String := do
  let step : List String × Bool → Parser (Option (List String × Bool)) := fun (found, more) => do
    match ← transactionMode? with
    | some mode => return some (mode :: found, ← mark? .comma)
    | none => if more then refuse else return none
  let (found, _) ← iterate step ([], false)
  return if found.isEmpty then "" else " " ++ Text.joinWith ", " found.reverse

/-- A word that names a transaction as such, with a blank before it. -/
def transactionWord : Parser String := do
  return match ← oneOf? ["TRANSACTION", "WORK"] with
    | some word => " " ++ word
    | none => ""

/-- The start of a transaction or of a guarded block. -/
def beginBlock : Parser (List Piece) := do
  let modifier := match ← oneOf? ["DEFERRED", "IMMEDIATE", "EXCLUSIVE", "TRY", "CATCH"] with
    | some word => " " ++ word
    | none => ""
  let word ← transactionWord
  return [.text ("BEGIN" ++ modifier ++ word ++ (← transactionModes))]

/-- The start of a transaction. -/
def startTransaction : Parser (List Piece) := do
  expectKeyword "TRANSACTION"
  return [.text ("START TRANSACTION" ++ (← transactionModes))]

/-- Whether the next transaction takes over the modes of this one. -/
def chainClause : Parser String := do
  discard transactionWord
  if ← keyword? "AND" then
    let denied ← keyword? "NO"
    expectKeyword "CHAIN"
    return if denied then "" else " AND CHAIN"
  else return ""

/-- The end of a transaction or of a guarded block. -/
def endBlock : Parser (List Piece) := do
  let modifier := match ← oneOf? ["TRY", "CATCH"] with
    | some word => " " ++ word
    | none => ""
  return [.text ("END" ++ modifier ++ (← chainClause))]

/-- The end of a transaction that keeps its changes. -/
def commit : Parser (List Piece) := do
  return [.text ("COMMIT" ++ (← chainClause))]

/-- The end of a transaction that takes its changes back. -/
def rollback : Parser (List Piece) := do
  let chain ← chainClause
  if ← keyword? "TO" then
    discard (keyword? "SAVEPOINT")
    return [.text ("ROLLBACK" ++ chain ++ " TO SAVEPOINT " ++ (← identifier).text)]
  else return [.text ("ROLLBACK" ++ chain)]

/-- A point of a transaction to which it may be rolled back. -/
def savepoint : Parser (List Piece) := do
  return [.text ("SAVEPOINT " ++ (← identifier).text)]

/-- The removal of such a point. -/
def release : Parser (List Piece) := do
  discard (keyword? "SAVEPOINT")
  return [.text ("RELEASE SAVEPOINT " ++ (← identifier).text)]

/-! ## Settings -/

/-- Whether a setting is switched on or off. -/
def switchValue : Parser String := expectOneOf ["ON", "OFF"]

/-- Words of any kind with commas between them. -/
def settingNames : Parser String := do
  return Text.joinWith ", " (← commaSeparated do
    match ← next? with
    | some ⟨.word text quote, _⟩ => return (wordName text quote).text
    | some placed => refuseAt placed
    | none => refuseAnywhere)

/-- A setting of the session without an equals sign. -/
def sessionSetting (n : Nested) : Parser (List Piece) := do
  if ← keyword? "STATISTICS" then
    let topic ← expectOneOf ["IO", "PROFILE", "TIME", "XML"]
    return [.text ("SET STATISTICS " ++ topic ++ " " ++ (← switchValue))]
  else if ← keyword? "IDENTITY_INSERT" then
    let table ← objectName
    return [.text ("SET IDENTITY_INSERT " ++ nameText table ++ " " ++ (← switchValue))]
  else if ← keyword? "OFFSETS" then
    let words ← settingNames
    return [.text ("SET OFFSETS " ++ words ++ " " ++ (← switchValue))]
  else
    let names ← settingNames
    return [.text ("SET " ++ names ++ " "), .expr (← n.any)]

/-- A value of a setting; a query needs no parentheses here. -/
def settingValue (n : Nested) : Parser (List Piece) := do
  if ← seesOneOf ["SELECT", "WITH"] then
    return [.text "(", .query (← n.query), .text ")"]
  else return [.expr (← n.any)]

/-- A role that the session takes on. -/
def roleSetting (modifier : String) : Parser (List Piece) := do
  expectKeyword "ROLE"
  return [.text ("SET" ++ modifier ++ " ROLE " ++ (← identifier).text)]

/-- What follows the name of a setting. `beforeLast` are the tokens from the last part of the name
on. -/
def settingAfterName (n : Nested) (modifier name : String) (beforeLast : List PlacedToken) :
    Parser (List Piece) := do
  let assigned ← if ← mark? .equal then pure true else keyword? "TO"
  if assigned then
    let values ← commaSeparated (settingValue n)
    return .text ("SET" ++ modifier ++ " " ++ name ++ " = ") :: intersperse ", " values
  else if Text.sameText name "TIMEZONE" then
    return [.text ("SET" ++ modifier ++ " TIME ZONE "), .expr (← n.any)]
  else if name == "CHARACTERISTICS" then
    expectKeywords ["AS", "TRANSACTION"]
    return [.text ("SET SESSION CHARACTERISTICS AS TRANSACTION" ++ (← transactionModes))]
  else if name == "TRANSACTION" && modifier.isEmpty then
    if ← keyword? "SNAPSHOT" then
      return [.text ("SET TRANSACTION SNAPSHOT " ++ (← literal).text)]
    else return [.text ("SET TRANSACTION" ++ (← transactionModes))]
  else
    set beforeLast
    sessionSetting n

/-- A setting or a variable that takes a value. -/
def setting (n : Nested) : Parser (List Piece) := do
  let modifier := match ← oneOf? ["SESSION", "LOCAL", "HIVEVAR"] with
    | some word => " " ++ word
    | none => ""
  if modifier == " HIVEVAR" then expectMark .colon
  else if let some role ← maybe (roleSetting modifier) then return role
  let start ← get
  if ← keywords? ["TIME", "ZONE"] then settingAfterName n modifier "TIMEZONE" (start.drop 1)
  else
    let name ← objectName
    let read := start.length - (← get).length
    settingAfterName n modifier (nameText name) (start.drop (read - 1))

/-- A change of the database. -/
def useDatabase : Parser (List Piece) := do
  return [.text ("USE " ++ nameText (← objectName))]

/-! ## Variables and messages -/

/-- A variable with its type and first value. -/
def declaration (n : Nested) : Parser (List Piece) := do
  let name ← identifier
  if !Text.startsWith "@" name.value then refuseAnywhere
  let type ←
    if ← keyword? "CURSOR" then pure "CURSOR"
    else do
      discard (keyword? "AS")
      pure (← n.type).text
  let value : List Piece ← if ← mark? .equal then pure [.text " = ", .expr (← n.any)] else pure []
  return .text (name.text ++ " " ++ type) :: value

/-- Variables with commas between them. -/
def declarations (n : Nested) : Parser (List Piece) := do
  return .text "DECLARE " :: intersperse "; " (← commaSeparated (declaration n))

/-- A message with its severity, its state and what it is made of. -/
def message (n : Nested) : Parser (List Piece) := do
  expectMark .openParen
  let message ← n.any
  expectMark .comma
  let severity ← n.any
  expectMark .comma
  let state ← n.any
  let more ← if ← mark? .comma then n.exprs else pure []
  expectMark .closeParen
  if ← keyword? "WITH" then discard (commaSeparated (expectOneOf ["LOG", "NOWAIT", "SETERROR"]))
  return .text "RAISERROR(" :: listPieces (message :: severity :: state :: more) ++ [.text ")"]

/-! ## Calls -/

/-- A call of a procedure with its arguments. -/
def execution (n : Nested) : Parser (List Piece) := do
  let name ← objectName
  let head := "EXECUTE " ++ nameText name
  let grouped ← mark? .openParen
  let ended ←
    if grouped then seesMark .closeParen
    else do
      let tokens ← get
      if tokens.isEmpty || (← seesKeyword "USING") then pure true else seesMark .semicolon
  let arguments ← if ended then pure [] else n.exprs
  if grouped then expectMark .closeParen
  if ← keyword? "USING" then discard n.exprs
  let list := listPieces arguments
  if grouped then return .text (head ++ "(") :: list ++ [.text ")"]
  else if arguments.isEmpty then return [.text head]
  else return .text (head ++ " ") :: list

/-- A call of a routine. -/
def call (n : Nested) : Parser (List Piece) := do
  let name ← objectName
  if ← seesMark .openParen then return [.text "CALL ", .expr (← callAfterName n name)]
  else return [.text ("CALL " ++ nameText name)]

/-- The end of another session. -/
def kill : Parser (List Piece) := do
  let modifier := match ← oneOf? ["CONNECTION", "QUERY"] with
    | some word => word ++ " "
    | none => ""
  return [.text ("KILL " ++ modifier ++ toString (← literalNumber))]

/-- The removal of the rows of tables. -/
def truncation (n : Nested) : Parser (List Piece) := do
  let table ← optionalWords ["TABLE"]
  let only ← optionalWords ["ONLY"]
  let names ← nameList
  if ← keyword? "PARTITION" then discard (parenthesized n.exprs)
  if ← keywords? ["ON", "CLUSTER"] then discard identifier
  return [.text ("TRUNCATE " ++ table ++ only ++ names)]

/-! ## Cursors -/

/-- A number as written. -/
def numberValue : Parser String := do
  match ← literal with
  | .other _ => refuseAnywhere
  | value => return value.text

/-- Which rows are fetched. -/
def fetchDirection : Parser String := do
  match ← oneOf? ["NEXT", "PRIOR", "FIRST", "LAST", "ABSOLUTE", "RELATIVE", "FORWARD", "BACKWARD",
      "ALL"] with
  | some word =>
    if ["ABSOLUTE", "RELATIVE"].contains word then return word ++ " " ++ (← numberValue)
    else if ["FORWARD", "BACKWARD"].contains word then
      if ← keyword? "ALL" then return word ++ " ALL" else return word ++ " " ++ (← numberValue)
    else return word
  | none => numberValue

/-- The next rows of a cursor. -/
def fetch : Parser (List Piece) := do
  let direction ← fetchDirection
  discard (expectOneOf ["FROM", "IN"])
  let name ← identifier
  let target ← if ← keyword? "INTO" then (do pure (" INTO " ++ nameText (← objectName))) else pure ""
  return [.text ("FETCH " ++ direction ++ " IN " ++ name.text ++ target)]

/-- The end of a cursor. -/
def close : Parser (List Piece) := do
  if ← keyword? "ALL" then return [.text "CLOSE ALL"]
  else return [.text ("CLOSE " ++ (← identifier).text)]

/-- The removal of a cursor. -/
def deallocation : Parser (List Piece) := do
  let prepared ← optionalWords ["PREPARE"]
  return [.text ("DEALLOCATE " ++ prepared ++ (← identifier).text)]

/-! ## Permissions -/

/-- A permission; some are limited to columns. -/
def permission : Parser String := do
  match ← oneOf? ["SELECT", "INSERT", "UPDATE", "REFERENCES", "DELETE", "EXECUTE", "CONNECT",
      "CREATE", "TEMPORARY", "TRIGGER", "TRUNCATE", "USAGE"] with
  | none => refuse
  | some word =>
    if ["SELECT", "INSERT", "UPDATE", "REFERENCES"].contains word then
      let columns ← columnList?
      if columns.isEmpty then return word
      else return word ++ " (" ++ Text.joinWith ", " (columns.map Ident.text) ++ ")"
    else return word

/-- Permissions and the objects they are for. -/
def permissions : Parser String := do
  let granted ←
    if ← keyword? "ALL" then
      if ← keyword? "PRIVILEGES" then pure "ALL PRIVILEGES" else pure "ALL"
    else do
      pure (Text.joinWith ", " (← commaSeparated permission))
  expectKeyword "ON"
  let kind ←
    if ← keywords? ["ALL", "TABLES", "IN", "SCHEMA"] then pure "ALL TABLES IN SCHEMA "
    else do
      if ← keywords? ["ALL", "SEQUENCES", "IN", "SCHEMA"] then pure "ALL SEQUENCES IN SCHEMA "
      else do
        match ← oneOf? ["SEQUENCE", "DATABASE", "SCHEMA", "TABLE", "VIEW"] with
        | some "TABLE" => pure ""
        | some word => pure (word ++ " ")
        | none => pure ""
  return granted ++ " ON " ++ kind ++ (← nameList)

/-- Those who hold permissions. A word for their kind holds for those after it too. -/
def holders : Parser Unit := do
  let holder : Bool → Parser Bool := fun anyone => do
    let kind ← oneOf? ["ROLE", "USER", "SHARE", "GROUP", "PUBLIC", "DATABASE", "APPLICATION"]
    match kind with
    | some "DATABASE" => discard (keyword? "ROLE")
    | some "APPLICATION" => discard (keyword? "ROLE")
    | _ => pure ()
    let anyone := match kind with
      | some word => word == "PUBLIC"
      | none => anyone
    if !anyone then
      discard objectName
      if ← mark? .colon then discard identifier
    return anyone
  let first ← holder false
  discard (iterate (fun anyone => do
    if ← mark? .comma then return some (← holder anyone) else return none) first)

/-- Who gave a permission. -/
def grantor : Parser Unit := do
  if ← keywords? ["GRANTED", "BY"] then discard identifier

/-- A permission that is given. -/
def grant : Parser (List Piece) := do
  let given ← permissions
  expectKeyword "TO"
  holders
  discard (keywords? ["WITH", "GRANT", "OPTION"])
  grantor
  return [.text ("GRANT " ++ given ++ " TO")]

/-- A permission that is taken back. -/
def revocation : Parser (List Piece) := do
  let taken ← permissions
  expectKeyword "FROM"
  holders
  grantor
  dropBehavior
  return [.text ("REVOKE " ++ taken ++ " FROM")]

end SchemaPlan.Grammar
