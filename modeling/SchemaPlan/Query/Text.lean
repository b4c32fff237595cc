import SchemaPlan.Query.Basic
import SchemaPlan.Text.Basic

/-!
# Writing queries

The text of a query and of its parts: keywords in capitals, single spaces, and names with the
quotes they were read with. A name in brackets is written without escaping what it holds; other
quotes double a quote inside, except directly after a backslash.
-/

namespace SchemaPlan.Query

/-- A text in which every quote is doubled, where a quote that is already doubled counts once and
one after a backslash is kept. `before` is the character before. -/
def escapeQuotes (quote : Char) : Char → List Char → List Char
  | _, [] => []
  | before, [c] => if c = quote && before != '\\' then [c, c] else [c]
  | before, c :: d :: rest =>
    if c = quote then
      if before = '\\' then c :: escapeQuotes quote before (d :: rest)
      else if d = quote then c :: c :: escapeQuotes quote c rest
      else c :: c :: escapeQuotes quote c (d :: rest)
    else c :: escapeQuotes quote c (d :: rest)

/-- A text between quotes. -/
def quoted (quote : Char) (text : String) : String :=
  String.singleton quote ++ String.ofList (escapeQuotes quote (Char.ofNat 0) text.toList) ++
    String.singleton quote

/-- A name with its quotes. -/
def Ident.text (name : Ident) : String :=
  match name.quote with
  | none => name.value
  | some '[' => "[" ++ name.value ++ "]"
  | some quote => quoted quote name.value

/-- The parts of a dotted name with their quotes. -/
def nameText (parts : List Ident) : String :=
  Text.joinWith "." (parts.map Ident.text)

/-- A column of an alias: its name and type. -/
def AliasColumn.text (column : AliasColumn) : String :=
  match column.type with
  | some type => column.name.text ++ " " ++ type
  | none => column.name.text

/-- An alias with its column list. -/
def TableAlias.text (label : TableAlias) : String :=
  if label.columns.isEmpty then label.name.text
  else label.name.text ++ " (" ++ Text.joinWith ", " (label.columns.map AliasColumn.text) ++ ")"

/-- An alias after a source. -/
def aliasText : Option TableAlias → String
  | some label => " AS " ++ label.text
  | none => ""

/-- The keywords of a join. -/
def JoinOperator.text : JoinOperator → String
  | .inner => "JOIN"
  | .left => "LEFT JOIN"
  | .right => "RIGHT JOIN"
  | .full => "FULL JOIN"
  | .cross => "CROSS JOIN"
  | .crossApply => "CROSS APPLY"
  | .outerApply => "OUTER APPLY"
  | .semi => "SEMI JOIN"
  | .leftSemi => "LEFT SEMI JOIN"
  | .rightSemi => "RIGHT SEMI JOIN"
  | .anti => "ANTI JOIN"
  | .leftAnti => "LEFT ANTI JOIN"
  | .rightAnti => "RIGHT ANTI JOIN"

mutual

/-- The text of an expression. -/
def Expr.text : Expr → String
  | .ident name => name.text
  | .compound parts => nameText parts
  | .binary left operator right => left.text ++ " " ++ operator ++ " " ++ right.text
  | .nested inner => "(" ++ inner.text ++ ")"
  | .call name arguments none => nameText name ++ piecesText arguments
  | .call name arguments (some window) =>
    nameText name ++ piecesText arguments ++ " OVER " ++ piecesText window
  | .form pieces => piecesText pieces

/-- Words and operands one after the other. -/
def piecesText : List Piece → String
  | [] => ""
  | .text words :: rest => words ++ piecesText rest
  | .expr operand :: rest => operand.text ++ piecesText rest
  | .query inner :: rest => inner.text ++ piecesText rest

/-- The text of a query. -/
def Query.text : Query → String
  | ⟨recursive, ctes, body, tail⟩ =>
    match ctes with
    | [] => body.text ++ piecesText tail
    | cte :: more =>
      (if recursive then "WITH RECURSIVE " else "WITH ") ++ cte.text ++ ctesText more ++ " " ++
        body.text ++ piecesText tail

/-- The text of a common table expression. -/
def Cte.text : Cte → String
  | ⟨label, query, origin⟩ =>
    label.text ++ " AS (" ++ query.text ++ ")" ++
      match origin with
      | some name => " FROM " ++ name.text
      | none => ""

/-- Further common table expressions, each after a comma. -/
def ctesText : List Cte → String
  | [] => ""
  | cte :: rest => ", " ++ cte.text ++ ctesText rest

/-- The text of a query body. -/
def Body.text : Body → String
  | .select select => select.text
  | .nested query => "(" ++ query.text ++ ")"
  | .operation left operator right => left.text ++ " " ++ operator ++ " " ++ right.text
  | .values explicitRow rows => "VALUES " ++ rowsText (if explicitRow then "ROW" else "") rows
  | .other pieces => piecesText pieces

/-- Rows in parentheses, each after `before`, with commas between them. -/
def rowsText (before : String) : List (List Expr) → String
  | [] => ""
  | [row] => before ++ "(" ++ exprsText row ++ ")"
  | row :: rest => before ++ "(" ++ exprsText row ++ "), " ++ rowsText before rest

/-- Expressions with commas between them. -/
def exprsText : List Expr → String
  | [] => ""
  | [expr] => expr.text
  | expr :: rest => expr.text ++ ", " ++ exprsText rest

/-- The amount of a limit. -/
def Quantity.text : Quantity → String
  | .number n => toString n
  | .expr amount => "(" ++ amount.text ++ ")"

/-- The clause that limits a select. -/
def Top.text : Top → String
  | ⟨quantity, percent, withTies⟩ =>
    "TOP " ++ quantity.text ++ (if percent then " PERCENT" else "") ++
      (if withTies then " WITH TIES" else "")

/-- The text of a projected item. -/
def SelectItem.text : SelectItem → String
  | .unnamed expr => expr.text
  | .aliased expr label => expr.text ++ " AS " ++ label.text
  | .wildcard => "*"
  | .qualifiedWildcard qualifier => nameText qualifier ++ ".*"

/-- Projected items with commas between them. -/
def itemsText : List SelectItem → String
  | [] => ""
  | [item] => item.text
  | item :: rest => item.text ++ ", " ++ itemsText rest

/-- The text of a select. -/
def Select.text : Select → String
  | ⟨quantifier, top, projection, into, sources, filter, grouping, tail⟩ =>
    "SELECT" ++ piecesText quantifier ++
      (match top with
      | some limit => " " ++ limit.text
      | none => "") ++
      " " ++ itemsText projection ++
      (match into with
      | some target => " " ++ target
      | none => "") ++
      (match sources with
      | [] => ""
      | source :: more => " FROM " ++ source.text ++ sourcesText more) ++
      piecesText filter ++ grouping.text ++ piecesText tail

/-- The clause that groups a select. -/
def Grouping.text : Grouping → String
  | .ungrouped => ""
  | .all => " GROUP BY ALL"
  | .by exprs => " GROUP BY " ++ exprsText exprs

/-- Further sources, each after a comma. -/
def sourcesText : List JoinedSource → String
  | [] => ""
  | source :: rest => ", " ++ source.text ++ sourcesText rest

/-- The text of a source with its joins. -/
def JoinedSource.text : JoinedSource → String
  | ⟨relation, joins⟩ => relation.text ++ joinsText joins

/-- Joins one after the other, each after a space. -/
def joinsText : List Join → String
  | [] => ""
  | join :: rest => " " ++ join.text ++ joinsText rest

/-- The text of a join. -/
def Join.text : Join → String
  | ⟨isGlobal, operator, relation, condition⟩ =>
    (if isGlobal then "GLOBAL " else "") ++
      (match condition with
      | .absent => operator.text ++ " " ++ relation.text
      | .natural => "NATURAL " ++ operator.text ++ " " ++ relation.text
      | .on expr => operator.text ++ " " ++ relation.text ++ " ON " ++ expr.text
      | .using columns =>
        operator.text ++ " " ++ relation.text ++ " USING(" ++
          Text.joinWith ", " (columns.map Ident.text) ++ ")")

/-- The text of a source. -/
def Factor.text : Factor → String
  | .table name arguments marker label tail =>
    nameText name ++
      (match arguments with
      | some pieces => piecesText pieces
      | none => "") ++
      marker ++ aliasText label ++ piecesText tail
  | .derived lateral query label =>
    (if lateral then "LATERAL (" else "(") ++ query.text ++ ")" ++ aliasText label
  | .joined inner label => "(" ++ inner.text ++ ")" ++ aliasText label
  | .special pieces label => piecesText pieces ++ aliasText label

end

end SchemaPlan.Query
