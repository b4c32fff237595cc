import SchemaPlan.Grammar.Source

/-!
# Statements that change rows

Insertions, updates, deletions and merges. They are kept as written forms only.
-/

namespace SchemaPlan.Grammar

open SchemaPlan.Sql SchemaPlan.Query

/-- The rows that a statement gives back. -/
def returningClause (n : Nested) : Parser (List Piece) := do
  if ← keyword? "RETURNING" then
    let items ← commaSeparated do
      let item ← projected n
      let label ← aliasName? columnAliasStops
      return item.pieces ++ (label.toList.map fun name => .text (" AS " ++ name.text))
    return .text " RETURNING " :: intersperse ", " items
  else return []

/-- The filter of a statement. -/
def whereClause (n : Nested) : Parser (List Piece) := do
  if ← keyword? "WHERE" then return [.text " WHERE ", .expr (← n.any)] else return []

/-- A joined source as a piece. -/
def sourceText (source : JoinedSource) : Piece := .text source.text

/-- Sources with commas between them. -/
def sourceList (n : Nested) : Parser (List Piece) := do
  return intersperse ", " ((← commaSeparated n.source).map fun source => [sourceText source])

/-- A column, or several in parentheses, that takes a value. -/
def assignment (n : Nested) : Parser (List Piece) := do
  let target ←
    if ← seesMark .openParen then
      let names ← parenthesized (commaSeparated objectName)
      pure ("(" ++ Text.joinWith ", " (names.map nameText) ++ ")")
    else do
      pure (nameText (← objectName))
  expectMark .equal
  return [.text (target ++ " = "), .expr (← n.any)]

/-- Assignments with commas between them. -/
def assignments (n : Nested) : Parser (List Piece) := do
  return intersperse ", " (← commaSeparated (assignment n))

/-- Whether a query starts here, perhaps in parentheses. -/
def seesQuery : Parser Bool := do
  match ← get with
  | ⟨.mark .openParen, _⟩ :: placed :: _ =>
    return placed.token.isKeyword "SELECT" || placed.token.isKeyword "WITH"
  | _ => return false

/-- An insertion after its first word. -/
def insertion (n : Nested) : Parser (List Piece) := do
  let overwrite ← keyword? "OVERWRITE"
  let into ← keyword? "INTO"
  let table ← keyword? "TABLE"
  let name ← objectName
  let head := "INSERT" ++ (if overwrite then " OVERWRITE" else "") ++
    (if into then " INTO" else "") ++ (if table then " TABLE" else "") ++ " " ++ nameText name ++ " "
  if ← keywords? ["DEFAULT", "VALUES"] then return [.text (head ++ "DEFAULT VALUES")]
  let columns ← if ← seesQuery then pure [] else columnList?
  let partition : List Piece ←
    if ← keyword? "PARTITION" then
      pure (.text "PARTITION (" :: listPieces (← parenthesized n.exprs) ++ [.text ") "])
    else pure []
  let rows ← n.query
  let columnText :=
    if columns.isEmpty then ""
    else "(" ++ Text.joinWith ", " (columns.map Ident.text) ++ ") "
  let returned ← returningClause n
  return .text (head ++ columnText) :: partition ++ .query rows :: returned

/-- An update after its first word. -/
def update (n : Nested) : Parser (List Piece) := do
  let target ← n.source
  let before : List Piece ←
    if ← keyword? "FROM" then pure [.text " FROM ", sourceText (← n.source)] else pure []
  expectKeyword "SET"
  let values ← assignments n
  let after : List Piece ←
    if before.isEmpty then
      if ← keyword? "FROM" then pure [.text " FROM ", sourceText (← n.source)] else pure []
    else pure []
  let filter ← whereClause n
  let returned ← returningClause n
  return .text "UPDATE " :: sourceText target :: before ++ .text " SET " :: values ++ after ++
    filter ++ returned

/-- A deletion after its first word. -/
def deletion (n : Nested) : Parser (List Piece) := do
  let tables ←
    if ← keyword? "FROM" then pure ""
    else do
      let tables ← commaSeparated objectName
      expectKeyword "FROM"
      pure (Text.joinWith ", " (tables.map nameText) ++ " ")
  let sources ← sourceList n
  let using' : List Piece ←
    if ← keyword? "USING" then pure (.text " USING " :: (← sourceList n)) else pure []
  let filter ← whereClause n
  let returned ← returningClause n
  let order : List Piece ←
    if ← keywords? ["ORDER", "BY"] then pure (.text " ORDER BY " :: (← orderItems n)) else pure []
  let limit : List Piece ←
    if ← keyword? "LIMIT" then pure [.text " LIMIT ", .expr (← n.any)] else pure []
  return .text ("DELETE " ++ tables ++ "FROM ") :: sources ++ using' ++ filter ++ returned ++ order ++
    limit

/-- Rows of values in parentheses, and whether any is written with the word `ROW`. -/
def valueRows (n : Nested) : Parser (Bool × List (List Expr)) := do
  let rows ← commaSeparated do
    let explicitRow ← keyword? "ROW"
    return (explicitRow, ← parenthesized n.exprs)
  return (rows.any (·.1), rows.map (·.2))

/-- A branch of a merge. -/
def mergeBranch (n : Nested) : Parser (List Piece) := do
  expectKeyword "WHEN"
  let missing ← keyword? "NOT"
  expectKeyword "MATCHED"
  let side ←
    if !missing then pure ""
    else do
      if ← keywords? ["BY", "SOURCE"] then pure " BY SOURCE"
      else do
        if ← keywords? ["BY", "TARGET"] then pure " BY TARGET" else pure ""
  let condition : List Piece ←
    if ← keyword? "AND" then pure [.text " AND ", .expr (← n.any)] else pure []
  expectKeyword "THEN"
  let insertsHere := missing && side != " BY SOURCE"
  let action : List Piece ← match ← oneOf? ["UPDATE", "INSERT", "DELETE"] with
    | some "UPDATE" => do
      if insertsHere then refuseAnywhere
      expectKeyword "SET"
      pure (.text "UPDATE SET " :: (← assignments n))
    | some "DELETE" => do
      if insertsHere then refuseAnywhere
      pure [.text "DELETE"]
    | some _ => do
      if !insertsHere then refuseAnywhere
      let columns ← columnList?
      expectKeyword "VALUES"
      let (explicitRow, rows) ← valueRows n
      let columnText :=
        if columns.isEmpty then ""
        else " (" ++ Text.joinWith ", " (columns.map Ident.text) ++ ")"
      pure [.text ("INSERT" ++ columnText ++ " " ++ (Body.values explicitRow rows).text)]
    | none => refuseAnywhere
  return .text ("WHEN" ++ (if missing then " NOT" else "") ++ " MATCHED" ++ side) :: condition ++
    .text " THEN " :: action

/-- A merge after its first word. -/
def merge (n : Nested) : Parser (List Piece) := do
  let into ← keyword? "INTO"
  let target ← n.factor
  expectKeyword "USING"
  let source ← n.factor
  expectKeyword "ON"
  let condition ← n.any
  let branches ← many do
    if (← get).isEmpty || (← seesMark .semicolon) then return none
    else return some (← mergeBranch n)
  return [.text ((if into then "MERGE INTO " else "MERGE ") ++ target.text ++ " USING " ++
      source.text ++ " ON "), .expr condition] ++
    (branches.map (.text " " :: ·)).flatten

end SchemaPlan.Grammar
