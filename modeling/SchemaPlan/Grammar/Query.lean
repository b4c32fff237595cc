import SchemaPlan.Grammar.Change
import SchemaPlan.Text.LowerCase

/-!
# Queries

A query is a body between common table expressions and the clauses that order and limit its
rows. Bodies are selects, queries in parentheses and literal rows, combined by set operations, of
which `INTERSECT` binds tighter than the others.

`grammar fuel depth` ties the rules together. Expressions, queries and statements may be nested
`nestingLimit` deep; each of them is read with one level less than what it stands in.
-/

namespace SchemaPlan.Grammar

open SchemaPlan.Sql SchemaPlan.Query

/-! ## Selects -/

/-- The limit of a select to its first rows. -/
def topClause (n : Nested) : Parser Top := do
  let quantity ←
    if ← seesMark .openParen then pure (.expr (← parenthesized n.any))
    else pure (.number (← literalNumber))
  let percent ← keyword? "PERCENT"
  let withTies ← keywords? ["WITH", "TIES"]
  return ⟨quantity, percent, withTies⟩

/-- An item of a projection: a star, or an expression with an alias after it or before it. -/
def selectItem (n : Nested) : Parser SelectItem := do
  match ← projected n with
  | .star => return .wildcard
  | .qualifiedStar qualifier => return .qualifiedWildcard qualifier
  | .expr (.binary (.ident label) "=" value) => return .aliased value label
  | .expr value =>
    -- `FROM` in place of an item: the list is empty or ends in a comma.
    if let .ident ⟨name, none⟩ := value then
      if Text.lower name == "from" then refuse
    match ← aliasName? columnAliasStops with
    | some label => return .aliased value label
    | none => return .unnamed value

/-- The quantifier of a select. `ALL` is the default and is not kept. -/
def quantifierClause (n : Nested) : Parser (List Piece) := do
  let start ← get
  let all ← keyword? "ALL"
  if !(← keyword? "DISTINCT") then return []
  if all then
    -- Two quantifiers are reported at the first one.
    set start
    refuse
  if ← keyword? "ON" then
    expectMark .openParen
    let exprs ← if ← seesMark .closeParen then pure [] else n.exprs
    expectMark .closeParen
    return .text " DISTINCT ON (" :: listPieces exprs ++ [.text ")"]
  else return [.text " DISTINCT"]

/-- The table that a select writes its rows to. -/
def intoClause : Parser (Option String) := do
  if !(← keyword? "INTO") then return none
  let temporary := if (← oneOf? ["TEMP", "TEMPORARY"]).isSome then " TEMPORARY" else ""
  let unlogged := if ← keyword? "UNLOGGED" then " UNLOGGED" else ""
  let table := if ← keyword? "TABLE" then " TABLE" else ""
  return some ("INTO" ++ temporary ++ unlogged ++ table ++ " " ++ nameText (← objectName))

/-- The views that spread a value over rows. -/
def lateralViews (n : Nested) : Parser (List Piece) := do
  let views ← many do
    if !(← keywords? ["LATERAL", "VIEW"]) then return none
    let outer := if ← keyword? "OUTER" then " OUTER" else ""
    let value ← n.any
    let name ← objectName
    let aliases ← commaSeparated
      (aliasName? ["WHERE", "GROUP", "CLUSTER", "HAVING", "LATERAL"])
    let columns := aliases.filterMap id
    let columnText :=
      if columns.isEmpty then "" else " AS " ++ Text.joinWith ", " (columns.map Ident.text)
    return some [.text (" LATERAL VIEW" ++ outer ++ " "), .expr value,
      .text (" " ++ nameText name ++ columnText)]
  return views.flatten

/-- The grouping of a select. -/
def groupingClause (n : Nested) : Parser Grouping := do
  if !(← keywords? ["GROUP", "BY"]) then return .ungrouped
  if ← keyword? "ALL" then return .all
  return .by (← n.exprs)

/-- A list of expressions after two keywords. -/
def listClause (n : Nested) (first second : String) : Parser (List Piece) := do
  if ← keywords? [first, second] then
    return .text (" " ++ first ++ " " ++ second ++ " ") :: listPieces (← n.exprs)
  else return []

/-- An expression after a keyword. -/
def valueClause (n : Nested) (keyword : String) : Parser (List Piece) := do
  if ← keyword? keyword then return [.text (" " ++ keyword ++ " "), .expr (← n.any)] else return []

/-- The windows that a select names. -/
def windowClause (n : Nested) : Parser (List Piece) := do
  if !(← keyword? "WINDOW") then return []
  let windows ← commaSeparated do
    let name ← identifier
    expectKeyword "AS"
    expectMark .openParen
    return .text (name.text ++ " AS ") :: (← windowSpec n)
  return .text " WINDOW " :: intersperse ", " windows

/-- The clause that walks a hierarchy of rows. -/
def hierarchyClause (n : Nested) : Parser (List Piece) := do
  if ← keywords? ["CONNECT", "BY"] then
    let relations ← n.exprs
    expectKeywords ["START", "WITH"]
    let start ← n.any
    return [.text " START WITH ", .expr start, .text " CONNECT BY "] ++ listPieces relations
  else if ← seesOneOf ["START", "CONNECT"] then
    expectKeywords ["START", "WITH"]
    let start ← n.any
    expectKeywords ["CONNECT", "BY"]
    return [.text " START WITH ", .expr start, .text " CONNECT BY "] ++ listPieces (← n.exprs)
  else return []

/-- A select. -/
def selectBody (n : Nested) : Parser Select := do
  expectKeyword "SELECT"
  let quantifier ← quantifierClause n
  let top ← if ← keyword? "TOP" then (do pure (some (← topClause n))) else pure none
  let projection ← commaSeparated (selectItem n)
  let into ← intoClause
  let sources ← if ← keyword? "FROM" then commaSeparated (joinedSource n) else pure []
  let views ← lateralViews n
  let filter ← valueClause n "WHERE"
  let grouping ← groupingClause n
  let cluster ← listClause n "CLUSTER" "BY"
  let distribution ← listClause n "DISTRIBUTE" "BY"
  let sorting ← listClause n "SORT" "BY"
  let having ← valueClause n "HAVING"
  let windows ← windowClause n
  let qualified ← valueClause n "QUALIFY"
  -- Windows are named before `QUALIFY` or behind it, but only once.
  let laterWindows ← if windows.isEmpty && !qualified.isEmpty then windowClause n else pure []
  let hierarchy ← hierarchyClause n
  return { quantifier, top, projection, into, sources, filter := views ++ filter, grouping,
           tail := cluster ++ distribution ++ sorting ++ having ++ windows ++ qualified ++
             laterWindows ++ hierarchy }

/-! ## Bodies -/

/-- A bare table; the two tokens after its name belong to it. -/
def tableBody : Parser Body := do
  let first ← next?
  let second ← next?
  let third ← next?
  let name : Option PlacedToken → Parser String := fun placed? => do
    match placed? with
    | some ⟨.word text _, _⟩ => return text
    | some placed => refuseAt placed
    | none => refuseAnywhere
  if second.any fun placed => placed.token.isMark .period then
    let schema ← name first
    return .other [.text ("TABLE " ++ schema ++ "." ++ (← name third))]
  else return .other [.text ("TABLE " ++ (← name first))]

/-- A body without set operations around it. -/
def plainBody (n : Nested) : Parser Body := do
  if ← seesKeyword "SELECT" then return .select (← selectBody n)
  else if ← seesMark .openParen then return .nested (← parenthesized n.query)
  else if ← keyword? "VALUES" then
    let (explicitRow, rows) ← valueRows n
    return .values explicitRow rows
  else if ← keyword? "TABLE" then tableBody
  else refuse

/-- The level of a set operation. -/
def setOperator? : Option Token → Option (String × Nat)
  | some token =>
    match token.keyword? with
    | some "UNION" => some ("UNION", 10)
    | some "EXCEPT" => some ("EXCEPT", 10)
    | some "MINUS" => some ("MINUS", 10)
    | some "INTERSECT" => some ("INTERSECT", 20)
    | _ => none
  | none => none

/-- The quantifier of a set operation. -/
def setQuantifier : Parser String := do
  if ← keywords? ["DISTINCT", "BY", "NAME"] then return " DISTINCT BY NAME"
  else if ← keywords? ["BY", "NAME"] then return " BY NAME"
  else if ← keyword? "ALL" then
    if ← keywords? ["BY", "NAME"] then return " ALL BY NAME" else return " ALL"
  else if ← keyword? "DISTINCT" then return " DISTINCT"
  else return ""

/-- A body of the set operations that bind tighter than `level`. -/
def queryBody (n : Nested) (level : Nat) : Parser Body := do
  let start ← plainBody n
  iterate (fun left => do
    match setOperator? (← peek?) with
    | some (operator, next) =>
      -- Operations of one level are grouped from the left.
      if next ≤ level then return none
      skip
      let quantifier ← setQuantifier
      let right ← n.body next
      return some (.operation left (operator ++ quantifier) right)
    | none => return none) start

/-! ## Queries -/

/-- A common table expression. -/
def tableExpression (n : Nested) : Parser Cte := do
  let name ← identifier
  let columns ← if ← seesKeyword "AS" then pure [] else aliasColumns n
  expectKeyword "AS"
  let query ← parenthesized n.query
  let origin ← if ← keyword? "FROM" then (do pure (some (← identifier))) else pure none
  return ⟨⟨name, columns⟩, query, origin⟩

/-- One clause each of a limit and an offset, in any order. -/
def limitClauses (n : Nested) : Parser (List Piece) := do
  let limit : Parser (Option (List Piece)) := do
    if !(← keyword? "LIMIT") then return none
    if ← keyword? "ALL" then return some []
    return some [.text " LIMIT ", .expr (← n.any)]
  let offset : Parser (Option (List Piece)) := do
    if !(← keyword? "OFFSET") then return none
    let value ← n.any
    let unit := match ← oneOf? ["ROW", "ROWS"] with
      | some unit => " " ++ unit
      | none => ""
    return some [.text " OFFSET ", .expr value, .text unit]
  let first ← limit
  let second ← offset
  -- `LIMIT ALL` sets no limit, so another one may follow the offset.
  let third ← if first.all List.isEmpty then limit else pure none
  let fourth ← if second.isNone then offset else pure none
  return first.getD [] ++ third.getD [] ++ second.getD [] ++ fourth.getD []

/-- The clause that fetches a number of rows. -/
def fetchClause : Parser (List Piece) := do
  if !(← keyword? "FETCH") then return []
  discard (expectOneOf ["FIRST", "NEXT"])
  let amount ←
    if (← oneOf? ["ROW", "ROWS"]).isSome then pure ""
    else do
      let amount ← literal
      let percent := if ← keyword? "PERCENT" then " PERCENT" else ""
      discard (expectOneOf ["ROW", "ROWS"])
      pure (" " ++ amount.text ++ percent)
  let ending ←
    if ← keyword? "ONLY" then pure "ONLY"
    else do
      if ← keywords? ["WITH", "TIES"] then pure "WITH TIES" else refuse
  return [.text (" FETCH FIRST" ++ amount ++ " ROWS " ++ ending)]

/-- A text in parentheses, if a parenthesis comes next. -/
def textArgument? : Parser String := do
  if ← seesMark .openParen then return "('" ++ (← parenthesized typedText) ++ "')" else return ""

/-- The options of a document, each after a comma; a comma may stand alone. -/
def documentOptions (options : List (List String)) : Parser (List String) := do
  let found ← many do
    if !(← mark? .comma) then return none
    let tokens ← get
    match options.find? (startsWithKeywords · tokens) with
    | some words =>
      set (tokens.drop words.length)
      let argument ← if words == ["ROOT"] then (do
        pure ("('" ++ (← parenthesized typedText) ++ "')")) else pure ""
      return some [Text.joinWith " " words ++ argument]
    | none => return some []
  return found.flatten

/-- Options in their written order, each after a comma. -/
def orderedOptions (order given : List String) : String :=
  String.join (order.flatMap fun word =>
    (given.filter (Text.startsWith word)).take 1 |>.map (", " ++ ·))

/-- The form in which a query gives its rows, after the word `FOR`; nothing if the word belongs to
a lock. -/
def documentClause? : Parser (Option String) := do
  if ← keyword? "XML" then
    let form ← match ← oneOf? ["RAW", "AUTO", "EXPLICIT", "PATH"] with
      | some word =>
        if word == "RAW" || word == "PATH" then pure (word ++ (← textArgument?)) else pure word
      | none => refuseAnywhere
    let options ← documentOptions [["ELEMENTS"], ["BINARY", "BASE64"], ["ROOT"], ["TYPE"]]
    return some ("XML " ++ form ++
      orderedOptions ["BINARY BASE64", "TYPE", "ROOT", "ELEMENTS"] options)
  else if ← keyword? "JSON" then
    let form ← match ← oneOf? ["AUTO", "PATH"] with
      | some word => pure word
      | none => refuseAnywhere
    let options ← documentOptions [["ROOT"], ["INCLUDE_NULL_VALUES"], ["WITHOUT_ARRAY_WRAPPER"]]
    return some ("JSON " ++ form ++
      orderedOptions ["ROOT", "INCLUDE_NULL_VALUES", "WITHOUT_ARRAY_WRAPPER"] options)
  else if ← keyword? "BROWSE" then return some "BROWSE"
  else return none

/-- A lock on the rows of a query, after the word `FOR`. -/
def lockClause : Parser String := do
  let kind ← expectOneOf ["UPDATE", "SHARE"]
  let tables ← if ← keyword? "OF" then (do pure (" OF " ++ nameText (← objectName))) else pure ""
  let wait ←
    if ← keyword? "NOWAIT" then pure " NOWAIT"
    else do
      if ← keywords? ["SKIP", "LOCKED"] then pure " SKIP LOCKED" else pure ""
  return kind ++ tables ++ wait

/-- The locks of a query and the form of its rows. -/
def forClauses : Parser (List Piece) := do
  let step : List String × Option String → Parser (Option (List String × Option String)) :=
    fun (locks, document) => do
      if document.isSome then return none
      if !(← keyword? "FOR") then return none
      match ← documentClause? with
      | some form => return some (locks, some form)
      | none => return some ((← lockClause) :: locks, none)
  let (locks, document) ← iterate step ([], none)
  return (locks.reverse ++ document.toList).map fun clause => .text (" FOR " ++ clause)

/-- A query. -/
def query (n : Nested) : Parser Query := do
  let (isRecursive, ctes) ←
    if ← keyword? "WITH" then do
      let isRecursive ← keyword? "RECURSIVE"
      pure (isRecursive, ← commaSeparated (tableExpression n))
    else pure (false, [])
  if ← keyword? "INSERT" then return ⟨isRecursive, ctes, .other (← insertion n), []⟩
  else if ← keyword? "UPDATE" then return ⟨isRecursive, ctes, .other (← update n), []⟩
  else
    let body ← queryBody n 0
    let order : List Piece ←
      if ← keywords? ["ORDER", "BY"] then pure (.text " ORDER BY " :: (← orderItems n)) else pure []
    let limits ← limitClauses n
    let fetched ← fetchClause
    let forms ← forClauses
    return ⟨isRecursive, ctes, body, order ++ limits ++ fetched ++ forms⟩

/-! ## The whole grammar -/

/-- How deep expressions, queries and statements may be nested. -/
def nestingLimit : Nat := 50

/-- A parser that has to be within the nesting limit: it is given the depth that remains. -/
def guarded {α : Type} (depth : Nat) (parser : Nat → Parser α) : Parser α :=
  match depth with
  | 0 => throw .tooDeep
  | rest + 1 => parser rest

/-- The parsers for nested constructs. Each time one is entered a token has been read before, so
the number of tokens bounds `fuel`. -/
def grammar : Nat → Nat → Nested
  | 0, _ =>
    { expr := fun _ => refuse, operand := refuse, type := refuse, query := refuse,
      body := fun _ => refuse, source := refuse, factor := refuse }
  | fuel + 1, depth =>
    { expr := fun level => guarded depth fun rest tokens => expression (grammar fuel rest) level tokens
      operand := fun tokens => operand (grammar fuel depth) tokens
      type := dataType
      query := guarded depth fun rest tokens => query (grammar fuel rest) tokens
      body := fun level tokens => queryBody (grammar fuel depth) level tokens
      source := fun tokens => joinedSource (grammar fuel depth) tokens
      factor := fun tokens => sourceFactor (grammar fuel depth) tokens }

/-- The grammar for a number of tokens, at a depth that remains. -/
def grammarFor (tokens : Nat) (depth : Nat) : Nested := grammar (4 * tokens + 8) depth

/-- The tokens of a text without blanks. -/
def significantTokens (tokens : List PlacedToken) : List PlacedToken :=
  tokens.filter fun placed => !placed.token.isBlank

/-- The query at the start of a text, or why there is none; what follows it is not looked at. -/
def parseQuery (text : String) : Except SyntaxError Query := do
  match scan text with
  | .error failure => throw (.unexpected (some failure.line))
  | .ok placed =>
    let tokens := significantTokens placed
    let (query, _) ← (grammarFor tokens.length nestingLimit).query tokens
    return query

end SchemaPlan.Grammar
