import SchemaPlan.Definition.Basic
import SchemaPlan.Sql.Cursor

/-!
# Tables in the grammar

Columns, constraints and the options of a table. A column's type is written back before it is
read as a declared type. Of several nullability markers the last one counts.
-/

namespace SchemaPlan.Grammar

open SchemaPlan.Sql SchemaPlan.Query

/-! ## Options -/

/-- What a foreign key does when its target changes. -/
def referentialAction : Parser Unit := do
  if ← keyword? "RESTRICT" then return
  if ← keyword? "CASCADE" then return
  if ← keywords? ["SET", "NULL"] then return
  if ← keywords? ["NO", "ACTION"] then return
  if ← keywords? ["SET", "DEFAULT"] then return
  refuse

/-- The actions of a foreign key, one each for deletions and updates in any order. -/
def referentialActions : Parser Unit := do
  let step : Bool × Bool → Parser (Option (Bool × Bool)) := fun (onDelete, onUpdate) => do
    let tokens ← get
    if !onDelete && startsWithKeywords ["ON", "DELETE"] tokens then
      expectKeywords ["ON", "DELETE"]
      referentialAction
      return some (true, onUpdate)
    else if !onUpdate && startsWithKeywords ["ON", "UPDATE"] tokens then
      expectKeywords ["ON", "UPDATE"]
      referentialAction
      return some (onDelete, true)
    else return none
  discard (iterate step (false, false))

/-- Which properties of a constraint have been written. -/
structure Characteristics where
  deferrable : Bool := false
  initially : Bool := false
  enforced : Bool := false

/-- When a constraint is checked, and whether. -/
def characteristics : Parser Unit := do
  let step : Characteristics → Parser (Option Characteristics) := fun seen => do
    let tokens ← get
    if !seen.deferrable && startsWithKeywords ["NOT", "DEFERRABLE"] tokens then
      expectKeywords ["NOT", "DEFERRABLE"]
      return some { seen with deferrable := true }
    else if !seen.deferrable && startsWithKeywords ["DEFERRABLE"] tokens then
      skip
      return some { seen with deferrable := true }
    else if !seen.initially && startsWithKeywords ["INITIALLY"] tokens then
      skip
      discard (expectOneOf ["DEFERRED", "IMMEDIATE"])
      return some { seen with initially := true }
    else if !seen.enforced && startsWithKeywords ["ENFORCED"] tokens then
      skip
      return some { seen with enforced := true }
    else if !seen.enforced && startsWithKeywords ["NOT", "ENFORCED"] tokens then
      expectKeywords ["NOT", "ENFORCED"]
      return some { seen with enforced := true }
    else return none
  discard (iterate step {})

/-- The values of names. -/
def identValues (names : List Ident) : List String := names.map (·.value)

/-- The table and columns that a foreign key refers to. -/
def referenced : Parser (List Ident × List Ident) := do
  let table ← objectName
  let columns ← columnList?
  referentialActions
  characteristics
  return (table, columns)

/-- The reference to a table, if the table's name has a meaning. -/
def reference? (target : List Ident × List Ident) : Option ColumnReference :=
  (QualifiedName.ofParts? (identValues target.1)).map fun table =>
    { table, columns := identValues target.2 }

/-- A number with an optional sign. -/
def signedNumber : Parser Unit := do
  discard (accepts fun token => token.isMark .plus || token.isMark .minus)
  match ← literal with
  | .other _ => refuseAnywhere
  | _ => return

/-- The options of a sequence, each at most once and in this order. -/
def sequenceOptions : Parser Unit := do
  if ← keyword? "INCREMENT" then
    discard (keyword? "BY")
    signedNumber
  if ← keyword? "MINVALUE" then signedNumber else discard (keywords? ["NO", "MINVALUE"])
  if ← keyword? "MAXVALUE" then signedNumber else discard (keywords? ["NO", "MAXVALUE"])
  if ← keyword? "START" then
    discard (keyword? "WITH")
    signedNumber
  if ← keyword? "CACHE" then signedNumber
  if !(← keywords? ["NO", "CYCLE"]) then discard (keyword? "CYCLE")

/-! ## Columns -/

/-- The columns of a key may be generated; whether such an option follows its first word. -/
def generatedOption (n : Nested) : Parser Bool := do
  let isIdentity ←
    if ← keywords? ["ALWAYS", "AS", "IDENTITY"] then pure true
    else keywords? ["BY", "DEFAULT", "AS", "IDENTITY"]
  if isIdentity then
    if ← mark? .openParen then
      sequenceOptions
      expectMark .closeParen
    return true
  else if ← keywords? ["ALWAYS", "AS"] then
    if ← mark? .openParen then
      discard n.any
      expectMark .closeParen
      if !(← keyword? "STORED") then discard (keyword? "VIRTUAL")
      return true
    else return false
  else return false

/-- Read words that mean something in other places only. -/
def skipForeignWords : Parser Unit := do
  discard (keyword? "AUTO_INCREMENT")
  discard (keyword? "AUTOINCREMENT")
  discard (keyword? "ASC")
  discard (keyword? "DESC")
  discard (keywords? ["ON", "UPDATE"])

/-- The column with an option that comes next; nothing if none does. -/
def columnOption? (n : Nested) (column : ColumnDefinition) : Parser (Option ColumnDefinition) := do
  if ← keywords? ["CHARACTER", "SET"] then
    discard objectName
    return some column
  else if ← keywords? ["NOT", "NULL"] then return some { column with nullability := some false }
  else if ← keyword? "COMMENT" then
    discard plainText
    return some column
  else if ← keyword? "NULL" then return some { column with nullability := some true }
  else if ← keyword? "DEFAULT" then
    discard n.any
    return some column
  else if ← keywords? ["PRIMARY", "KEY"] then
    characteristics
    return some { column with isPrimaryKey := true }
  else if ← keyword? "UNIQUE" then
    characteristics
    return some column
  else if ← keyword? "REFERENCES" then
    return some { column with references := reference? (← referenced) }
  else if ← keyword? "CHECK" then
    discard (parenthesized n.any)
    return some column
  else
    skipForeignWords
    if ← keyword? "GENERATED" then
      if ← generatedOption n then return some column else return none
    discard (keyword? "AS")
    if ← keyword? "IDENTITY" then
      if ← mark? .openParen then
        signedNumber
        expectMark .comma
        signedNumber
        expectMark .closeParen
      return some { column with isIdentity := true }
    else return none

/-- A column with a name, a type, a collation and options. -/
def columnDefinition (n : Nested) : Parser ColumnDefinition := do
  let name ← identifier
  let type ← n.type
  if ← keyword? "COLLATE" then discard objectName
  let start : ColumnDefinition := { name := name.value, type := DeclaredType.parse? type.text }
  iterate (fun column => do
    if ← keyword? "CONSTRAINT" then
      discard identifier
      match ← columnOption? n column with
      | some column => return some column
      | none => refuse
    else columnOption? n column) start

/-! ## Constraints -/

/-- The structure of an index. -/
def indexMethod : Parser Unit := do
  if ← keyword? "USING" then discard (expectOneOf ["BTREE", "HASH"])

/-- The columns of a key with an optional name in front and options after them. -/
def keyColumns : Parser (List Ident) := do
  discard (maybe identifier)
  indexMethod
  let columns ← columnList
  let _ ← many do
    if ← seesKeyword "USING" then
      indexMethod
      return some ()
    else if ← keyword? "COMMENT" then
      discard typedText
      return some ()
    else return none
  characteristics
  return columns

/-- A constraint of a table, if one comes next. -/
def tableConstraint? (n : Nested) : Parser (Option ConstraintDefinition) := do
  let name ←
    if ← keyword? "CONSTRAINT" then (do pure (some (← identifier).value)) else pure none
  if ← keyword? "UNIQUE" then
    if (← oneOf? ["KEY", "INDEX"]).isSome then refuse
    if ← keyword? "NULLS" then
      discard (keyword? "NOT")
      expectKeyword "DISTINCT"
    discard keyColumns
    return some (.other name)
  else if ← keyword? "PRIMARY" then
    expectKeyword "KEY"
    return some (.primaryKey name (identValues (← keyColumns)))
  else if ← keyword? "FOREIGN" then
    expectKeyword "KEY"
    let columns ← columnList
    expectKeyword "REFERENCES"
    match reference? (← referenced) with
    | some references => return some (.foreignKey name (identValues columns) references)
    | none => return some (.other name)
  else if ← keyword? "CHECK" then
    discard (parenthesized n.any)
    return some (.other name)
  else if name.isSome then refuse
  else return none

/-! ## Tables -/

/-- An element of a table. -/
inductive Element where
  | column (definition : ColumnDefinition)
  | constraint (definition : ConstraintDefinition)

/-- A column or a constraint. -/
def element (n : Nested) : Parser Element := do
  match ← tableConstraint? n with
  | some definition => return .constraint definition
  | none =>
    if ← sees Token.isWord then return .column (← columnDefinition n) else refuse

/-- The elements of a table in parentheses; there may be none, and no parentheses either. -/
def elements (n : Nested) : Parser (List Element) := do
  if !(← mark? .openParen) then return []
  if ← mark? .closeParen then return []
  let found ← commaSeparated (element n)
  expectMark .closeParen
  return found

/-- An option with its value, or one of the options that lay out a table. -/
def tableOption (n : Nested) : Parser Unit := do
  if ← keyword? "HEAP" then return
  else if ← keyword? "PARTITION" then
    expectMark .openParen
    discard identifier
    expectKeyword "RANGE"
    discard (oneOf? ["LEFT", "RIGHT"])
    expectKeywords ["FOR", "VALUES"]
    discard (parenthesized n.exprs)
    expectMark .closeParen
  else if ← keywords? ["CLUSTERED", "COLUMNSTORE", "INDEX", "ORDER"] then discard columnList
  else if ← keywords? ["CLUSTERED", "COLUMNSTORE", "INDEX"] then return
  else if ← keywords? ["CLUSTERED", "INDEX"] then
    discard (parenthesized (commaSeparated do
      discard identifier
      discard (oneOf? ["ASC", "DESC"])))
  else if ← seesKeyword "CLUSTERED" then refuseAnywhere
  else
    discard identifier
    expectMark .equal
    discard n.any

/-- Options in parentheses after a keyword, and whether there are any. -/
def options (n : Nested) (keyword : String) : Parser Unit := do
  if ← keyword? keyword then discard (parenthesized (commaSeparated (tableOption n)))

/-- A word or number after a keyword and an optional equals sign. -/
def settingAfter (words : List String) (value : Parser Unit) (requiresEqual : Bool) :
    Parser Unit := do
  if ← keywords? words then
    if requiresEqual then expectMark .equal else discard (mark? .equal)
    value

/-- Read a word. -/
def anyWord : Parser Unit := expect Token.isWord

/-- Where the rows of a temporary table end. -/
def commitClause : Parser Unit := do
  if ← keywords? ["ON", "COMMIT"] then
    if ← keywords? ["DELETE", "ROWS"] then return
    if ← keywords? ["PRESERVE", "ROWS"] then return
    if ← keyword? "DROP" then return
    refuseAnywhere

/-- What follows the elements of a table. -/
def tableTail (n : Nested) : Parser Unit := do
  discard (keywords? ["WITHOUT", "ROWID"])
  options n "WITH"
  options n "TBLPROPERTIES"
  settingAfter ["ENGINE"] (do
    anyWord
    discard columnList?) true
  settingAfter ["AUTO_INCREMENT"] (discard literalNumber) false
  if ← keywords? ["ORDER", "BY"] then
    if ← mark? .openParen then
      if !(← seesMark .closeParen) then discard n.exprs
      expectMark .closeParen
    else discard n.any
  settingAfter ["DEFAULT", "CHARSET"] anyWord true
  settingAfter ["COLLATE"] anyWord true
  commitClause
  discard (keyword? "STRICT")
  settingAfter ["COMMENT"] (discard plainText) false
  if ← keyword? "AS" then discard n.query

/-- The columns among elements. -/
def columnsOf (found : List Element) : List ColumnDefinition :=
  found.filterMap fun
    | .column definition => some definition
    | .constraint _ => none

/-- The constraints among elements. -/
def constraintsOf (found : List Element) : List ConstraintDefinition :=
  found.filterMap fun
    | .column _ => none
    | .constraint definition => some definition

/-- A table after the words that create it. A name without a meaning defines nothing. -/
def createTable (n : Nested) : Parser (List Statement) := do
  discard (keywords? ["IF", "NOT", "EXISTS"])
  let name ← objectName
  if ← keywords? ["ON", "CLUSTER"] then discard identifier
  if (← oneOf? ["LIKE", "ILIKE"]).isSome then discard (maybe objectName)
  if ← keyword? "CLONE" then discard (maybe objectName)
  let found ← elements n
  tableTail n
  match QualifiedName.ofParts? (identValues name) with
  | some name =>
    return [.table { name, columns := columnsOf found, constraints := constraintsOf found }]
  | none => return []

/-- A view after the words that create it. -/
def createView (n : Nested) : Parser (List Statement) := do
  discard (keyword? "MATERIALIZED")
  expectKeyword "VIEW"
  let name ← objectName
  let columns ←
    if ← mark? .openParen then
      if ← mark? .closeParen then pure []
      else do
        let columns ← commaSeparated identifier
        expectMark .closeParen
        pure columns
    else pure []
  options n "WITH"
  if ← keyword? "CLUSTER" then
    expectKeyword "BY"
    discard columnList?
  expectKeyword "AS"
  let query ← n.query
  match QualifiedName.ofParts? (identValues name) with
  | some name => return [.view { name, columns := identValues columns, query }]
  | none => return []

/-! ## Changes to tables -/

/-- What a dropped object takes with it. -/
def dropBehavior : Parser Unit := discard (oneOf? ["CASCADE", "RESTRICT"])

/-- A change to a column. -/
def columnChange (n : Nested) : Parser Unit := do
  discard (keyword? "COLUMN")
  discard identifier
  if ← keywords? ["SET", "NOT", "NULL"] then return
  if ← keywords? ["DROP", "NOT", "NULL"] then return
  if ← keywords? ["SET", "DEFAULT"] then
    discard n.any
    return
  if ← keywords? ["DROP", "DEFAULT"] then return
  if ← keywords? ["SET", "DATA", "TYPE"] then
    discard n.type
    return
  refuse

/-- What is dropped from a table. -/
def tableDrop : Parser Unit := do
  if ← keyword? "CONSTRAINT" then
    discard (keywords? ["IF", "EXISTS"])
    discard identifier
    dropBehavior
  else if ← keywords? ["CLUSTERING", "KEY"] then return
  else
    discard (keyword? "COLUMN")
    discard (keywords? ["IF", "EXISTS"])
    discard identifier
    dropBehavior

/-- What is switched on or off. -/
def tableSwitch (isOn : Bool) : Parser Unit := do
  if ← keywords? ["ROW", "LEVEL", "SECURITY"] then return
  if isOn then discard (oneOf? ["ALWAYS", "REPLICA"])
  if (← oneOf? ["RULE", "TRIGGER"]).isSome then discard identifier else refuse

/-- What is renamed. -/
def tableRename : Parser Unit := do
  if ← keyword? "TO" then discard objectName
  else
    discard (keyword? "COLUMN")
    discard identifier
    expectKeyword "TO"
    discard identifier

/-- A change to a table: the constraint that it adds, if it adds one. -/
def tableChange (n : Nested) : Parser (Option ConstraintDefinition) := do
  if ← keyword? "ADD" then
    match ← tableConstraint? n with
    | some definition => return some definition
    | none =>
      discard (keywords? ["IF", "NOT", "EXISTS"])
      discard (keyword? "COLUMN")
      discard (columnDefinition n)
      return none
  if ← keyword? "RENAME" then tableRename
  else if ← keyword? "DISABLE" then tableSwitch false
  else if ← keyword? "ENABLE" then tableSwitch true
  else if ← keyword? "DROP" then tableDrop
  else if ← keyword? "ALTER" then columnChange n
  else if ← keyword? "SWAP" then
    expectKeyword "WITH"
    discard objectName
  else if startsWithKeywords ["SET", "TBLPROPERTIES"] (← get) then
    expectKeyword "SET"
    options n "TBLPROPERTIES"
  else refuse
  return none

/-- Changes to a table after the words that announce them; only constraints that are added count. -/
def alterTable (n : Nested) : Parser (List Statement) := do
  discard (keywords? ["IF", "EXISTS"])
  discard (keyword? "ONLY")
  let name ← objectName
  if ← keywords? ["ON", "CLUSTER"] then discard identifier
  let changes ← commaSeparated (tableChange n)
  match QualifiedName.ofParts? (identValues name) with
  | some table => return (changes.filterMap id).map fun constraint => .addConstraint table constraint
  | none => return []

end SchemaPlan.Grammar
