import SchemaPlan.Grammar.Expr

/-!
# Sources of rows

What stands after `FROM`: tables, functions, queries in parentheses, and joins of these. A word
after a source is its alias unless it may start something else in that place.
-/

namespace SchemaPlan.Grammar

open SchemaPlan.Sql SchemaPlan.Query

/-! ## Aliases -/

/-- Words that are no alias of a column or of a table without `AS` in front. -/
def clauseWords : List String :=
  ["WITH", "EXPLAIN", "ANALYZE", "SELECT", "WHERE", "GROUP", "SORT", "HAVING", "ORDER", "TOP",
   "LATERAL", "VIEW", "LIMIT", "OFFSET", "FETCH", "UNION", "EXCEPT", "INTERSECT", "MINUS",
   "CLUSTER", "DISTRIBUTE", "RETURNING", "FROM", "END"]

/-- Words that are no alias of a column. -/
def columnAliasStops : List String := "INTO" :: clauseWords

/-- Words that are no alias of a table. -/
def tableAliasStops : List String :=
  ["PIVOT", "UNPIVOT", "ON", "JOIN", "INNER", "CROSS", "FULL", "LEFT", "RIGHT", "NATURAL",
   "USING", "GLOBAL", "ANTI", "SEMI", "ASOF", "MATCH_CONDITION", "OUTER", "SET", "QUALIFY",
   "WINDOW", "FOR", "PARTITION", "PREWHERE", "SETTINGS", "FORMAT", "START", "CONNECT",
   "MATCH_RECOGNIZE", "SAMPLE", "TABLESAMPLE"] ++ clauseWords

/-- An alias: any word after `AS`, a word that is none of `stops`, or a text in single quotes. -/
def aliasName? (stops : List String) : Parser (Option Ident) := do
  let named ← keyword? "AS"
  match ← peek? with
  | some (.word text quote) =>
    -- Behind `AS` even the words of clauses are aliases.
    if named || !stops.any (Token.word text quote).isKeyword then
      skip
      return some (wordName text quote)
    else return none
  | some (.literal .plain text) =>
    skip
    return some ⟨text, some '\''⟩
  | _ => if named then refuse else return none

/-- The columns after an alias, each with an optional type. -/
def aliasColumns (n : Nested) : Parser (List AliasColumn) := do
  if ← seesMark .openParen then
    parenthesized (commaSeparated do
      let name ← identifier
      let type ← maybe n.type
      return ⟨name, type.map TypeText.text⟩)
  else return []

/-- The alias of a source. -/
def tableAlias? (n : Nested) : Parser (Option TableAlias) := do
  match ← aliasName? tableAliasStops with
  | some name => return some ⟨name, ← aliasColumns n⟩
  | none => return none

/-! ## Special sources -/

/-- Arguments of a function after the opening parenthesis, with the closing one. -/
def functionArguments (n : Nested) : Parser (List Piece) := do
  if ← mark? .closeParen then return [.text "()"]
  let arguments ← commaSeparated (argument n)
  expectMark .closeParen
  return .text "(" :: intersperse ", " arguments ++ [.text ")"]

/-- A source that follows the word `LATERAL`. -/
def lateralSource (n : Nested) : Parser Factor := do
  if ← mark? .openParen then
    let query ← n.query
    expectMark .closeParen
    return .derived true query (← tableAlias? n)
  else
    let name ← objectName
    expectMark .openParen
    let arguments ← functionArguments n
    let label ← tableAlias? n
    return .special (.text ("LATERAL " ++ nameText name) :: arguments) label

/-- A column of the rows read from a document. -/
def documentColumn (n : Nested) : Parser String := do
  let name ← identifier
  let type ← n.type
  let path ← match ← peek? with
    | some (.literal .plain text) => do
      skip
      pure (" " ++ quoted '\'' text)
    | _ => pure ""
  if ← keyword? "AS" then
    expectKeyword "JSON"
    return name.text ++ " " ++ type.text ++ path ++ " AS JSON"
  else return name.text ++ " " ++ type.text ++ path

/-- Rows read from a document, after the word that names the function. -/
def documentSource (n : Nested) : Parser Factor := do
  expectMark .openParen
  let document ← n.any
  let path ← if ← mark? .comma then (do pure (", " ++ (← literal).text)) else pure ""
  expectMark .closeParen
  let columns ←
    if ← keyword? "WITH" then
      pure (" WITH (" ++
        Text.joinWith ", " (← parenthesized (commaSeparated (documentColumn n))) ++ ")")
    else pure ""
  let label ← tableAlias? n
  return .special [.text "OPENJSON(", .expr document, .text (path ++ ")" ++ columns)] label

/-- A value and its optional alias. -/
def aliasedValue (n : Nested) : Parser (List Piece) := do
  let value ← n.any
  if ← keyword? "AS" then return [.expr value, .text (" AS " ++ (← identifier).text)]
  else return [.expr value]

/-- A call and its optional alias. -/
def aliasedCall (n : Nested) : Parser (List Piece) := do
  match ← next? with
  | some ⟨.word text _, _⟩ =>
    let call ← callAfterName n [⟨text, none⟩]
    if ← keyword? "AS" then return [.expr call, .text (" AS " ++ (← identifier).text)]
    else return [.expr call]
  | _ => refuse

/-- The values that become columns. -/
def pivotValues (n : Nested) : Parser (List Piece) := do
  if ← keyword? "ANY" then
    if ← keywords? ["ORDER", "BY"] then return .text "ANY ORDER BY " :: (← orderItems n)
    else return [.text "ANY"]
  else if ← seesOneOf ["SELECT", "WITH"] then return [.query (← n.query)]
  else return intersperse ", " (← commaSeparated (aliasedValue n))

/-- A source whose values become columns. -/
def pivoted (n : Nested) (source : Factor) : Parser Factor := do
  expectMark .openParen
  let calls ← commaSeparated (aliasedCall n)
  expectKeyword "FOR"
  let column ← objectName
  expectKeyword "IN"
  let values ← parenthesized (pivotValues n)
  let otherwise : List Piece ←
    if ← keywords? ["DEFAULT", "ON", "NULL"] then
      pure [.text " DEFAULT ON NULL (", .expr (← parenthesized n.any), .text ")"]
    else pure []
  expectMark .closeParen
  let label ← tableAlias? n
  return .special (.text (source.text ++ " PIVOT(") :: intersperse ", " calls ++
    .text (" FOR " ++ nameText column ++ " IN (") :: values ++ .text ")" :: otherwise ++
    [.text ")"]) label

/-- A source whose columns become values. -/
def unpivoted (n : Nested) (source : Factor) : Parser Factor := do
  expectMark .openParen
  let value ← identifier
  expectKeyword "FOR"
  let name ← identifier
  expectKeyword "IN"
  let columns ← columnList
  expectMark .closeParen
  let label ← tableAlias? n
  return .special [.text (source.text ++ " UNPIVOT(" ++ value.text ++ " FOR " ++ name.text ++
    " IN (" ++ Text.joinWith ", " (columns.map Ident.text) ++ "))")] label

/-- A source with the pivots after it. -/
def withPivots (n : Nested) (source : Factor) : Parser Factor :=
  iterate (fun source => do
    match ← oneOf? ["PIVOT", "UNPIVOT"] with
    | some "PIVOT" => return some (← pivoted n source)
    | some _ => return some (← unpivoted n source)
    | none => return none) source

/-- A sample of the rows of a table. -/
def sampleClause (n : Nested) : Parser (List Piece) := do
  match ← oneOf? ["TABLESAMPLE", "SAMPLE"] with
  | none => return []
  | some word =>
    let method := match ← oneOf? ["BERNOULLI", "ROW", "SYSTEM", "BLOCK"] with
      | some method => " " ++ method
      | none => ""
    let closes ← mark? .openParen
    let amount : List Piece ← match ← maybe n.any with
      | some amount => pure [.expr amount]
      | none => do
        match ← next? with
        | some ⟨.word text _, _⟩ => pure [.text text]
        | _ => refuse
    let unit := match ← oneOf? ["ROWS", "PERCENT"] with
      | some unit => " " ++ unit
      | none => ""
    if closes then expectMark .closeParen
    let seed ← match ← oneOf? ["REPEATABLE", "SEED"] with
      | some seed => do
        let value ← parenthesized literal
        pure (" " ++ seed ++ " (" ++ value.text ++ ")")
      | none => pure ""
    return .text (" " ++ word ++ method ++ (if closes then " (" else " ")) :: amount ++
      [.text (unit ++ (if closes then ")" else "") ++ seed)]

/-- The hints after a table. A `WITH` that no parenthesis follows is not read. -/
def hintClause (n : Nested) : Parser (List Piece) := do
  match ← get with
  | placed :: ⟨.mark .openParen, _⟩ :: rest =>
    if placed.token.isKeyword "WITH" then
      set rest
      let hints ← n.exprs
      expectMark .closeParen
      return .text " WITH (" :: listPieces hints ++ [.text ")"]
    else return []
  | _ => return []

/-- A table or a function by its name. -/
def namedSource (n : Nested) : Parser Factor := do
  let name ← objectName
  let version : List Piece ←
    if ← keywords? ["FOR", "SYSTEM_TIME", "AS", "OF"] then
      pure [.text " FOR SYSTEM_TIME AS OF ", .expr (← n.any)]
    else pure []
  let arguments ← if ← mark? .openParen then (do pure (some (← functionArguments n))) else pure none
  let marker := if ← keywords? ["WITH", "ORDINALITY"] then " WITH ORDINALITY" else ""
  let label ← tableAlias? n
  let hints ← hintClause n
  let sample ← sampleClause n
  withPivots n (.table name arguments marker label (hints ++ version ++ sample))

/-- What stands in parentheses in place of a source, after the opening parenthesis: a query, or
joined sources. -/
def groupedSource (n : Nested) : Parser Factor := do
  let derived ← maybe do
    let query ← n.query
    expectMark .closeParen
    return Factor.derived false query (← tableAlias? n)
  match derived with
  | some source => withPivots n source
  | none =>
    let inner ← n.source
    let joined := match inner with
      | ⟨.joined _ _, _⟩ => true
      | ⟨_, joins⟩ => !joins.isEmpty
    -- A single table in parentheses is no source.
    if !joined then refuse
    expectMark .closeParen
    return .joined inner (← tableAlias? n)

/-- Whether the tokens start with a keyword and an opening parenthesis. -/
def startsCall (keyword : String) : List PlacedToken → Bool
  | placed :: ⟨.mark .openParen, _⟩ :: _ => placed.token.isKeyword keyword
  | _ => false

/-- A single source of rows. -/
def sourceFactor (n : Nested) : Parser Factor := do
  if ← keyword? "LATERAL" then lateralSource n
  else if ← keyword? "TABLE" then
    let value ← parenthesized n.any
    let label ← tableAlias? n
    return .special [.text "TABLE(", .expr value, .text ")"] label
  else if ← mark? .openParen then groupedSource n
  else if startsCall "OPENJSON" (← get) then
    skip
    documentSource n
  else namedSource n

/-! ## Joins -/

/-- The operator after `LEFT` or `RIGHT`. -/
def sidedJoin (plain filtering excluding : JoinOperator) : Parser JoinOperator := do
  match ← oneOf? ["OUTER", "SEMI", "ANTI", "JOIN"] with
  | some "OUTER" =>
    expectKeyword "JOIN"
    return plain
  | some "SEMI" =>
    expectKeyword "JOIN"
    return filtering
  | some "ANTI" =>
    expectKeyword "JOIN"
    return excluding
  | some _ => return plain
  | none => refuseAnywhere

/-- The operator of a join with a condition. -/
def conditionedJoin? (isNatural : Bool) : Parser (Option JoinOperator) := do
  if ← seesOneOf ["INNER", "JOIN"] then
    discard (keyword? "INNER")
    expectKeyword "JOIN"
    return some .inner
  match ← oneOf? ["LEFT", "RIGHT", "ANTI", "SEMI", "FULL"] with
  | some "LEFT" => return some (← sidedJoin .left .leftSemi .leftAnti)
  | some "RIGHT" => return some (← sidedJoin .right .rightSemi .rightAnti)
  | some "ANTI" =>
    expectKeyword "JOIN"
    return some .anti
  | some "SEMI" =>
    expectKeyword "JOIN"
    return some .semi
  | some _ =>
    discard (keyword? "OUTER")
    expectKeyword "JOIN"
    return some .full
  | none =>
    if isNatural || (← seesKeyword "OUTER") then refuse else return none

/-- The condition of a join. -/
def joinCondition (n : Nested) (isNatural : Bool) : Parser JoinCondition := do
  if isNatural then return .natural
  else if ← keyword? "ON" then return .on (← n.any)
  else if ← keyword? "USING" then return .using (← columnList)
  else return .absent

/-- A join, if one comes next. -/
def join? (n : Nested) : Parser (Option Join) := do
  let isGlobal ← keyword? "GLOBAL"
  if ← keyword? "CROSS" then
    match ← expectOneOf ["JOIN", "APPLY"] with
    | "JOIN" => return some ⟨isGlobal, .cross, ← sourceFactor n, .absent⟩
    | _ => return some ⟨isGlobal, .crossApply, ← sourceFactor n, .absent⟩
  else if ← keyword? "OUTER" then
    expectKeyword "APPLY"
    return some ⟨isGlobal, .outerApply, ← sourceFactor n, .absent⟩
  else
    let isNatural ← keyword? "NATURAL"
    match ← conditionedJoin? isNatural with
    | some operator =>
      let relation ← sourceFactor n
      return some ⟨isGlobal, operator, relation, ← joinCondition n isNatural⟩
    | none => return none

/-- The joins after a source. -/
def joinsAfter (n : Nested) : Parser (List Join) := many (join? n)

/-- A source with its joins. -/
def joinedSource (n : Nested) : Parser JoinedSource := do
  let relation ← sourceFactor n
  return ⟨relation, ← joinsAfter n⟩

end SchemaPlan.Grammar
