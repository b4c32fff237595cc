import SchemaPlan.Definition.Constraint

/-!
# Table definitions

The body of a table is cut at the commas of its outermost level. Each element is a constraint if
its first word starts one, and a column otherwise.
-/

namespace SchemaPlan.Definition

open SchemaPlan.Sql SchemaPlan.Sql.Reading

/-- The elements of a body as ranges of positions, and the position after the parenthesis that
closes it. The tokens start at `pos`, the open element at `start`, and `depth` groups are open. -/
def elementRanges (pos start depth : Nat) : List Token → Option (List (Nat × Nat) × Nat)
  | [] => none
  | token :: rest =>
    match token with
    | .mark .openParen => elementRanges (pos + 1) start (depth + 1) rest
    | .mark .closeParen =>
      if depth = 0 then some ([(start, pos)], pos + 1)
      else elementRanges (pos + 1) start (depth - 1) rest
    | .mark .comma =>
      if depth = 0 then
        (elementRanges (pos + 1) (pos + 1) 0 rest).map fun (ranges, stop) =>
          ((start, pos) :: ranges, stop)
      else elementRanges (pos + 1) start depth rest
    | _ => elementRanges (pos + 1) start depth rest

/-- The list without an empty text at its end. -/
def dropEmptyLast : List String → List String
  | [] => []
  | [last] => if last = "" then [] else [last]
  | text :: rest => text :: dropEmptyLast rest

/-- The texts of the elements of a body in parentheses. -/
def bodyElements : Reading (List String) := do
  expect (·.isMark .openParen)
  let cursor ← get
  let tokens := (cursor.tokens.toList.drop cursor.pos).map (·.token)
  match elementRanges cursor.pos cursor.pos 0 tokens with
  | some (ranges, stop) =>
    moveTo stop
    return dropEmptyLast (ranges.map fun (first, last) => cursor.slice first last)
  | none => failure

/-- The words that start a constraint in place of a column. -/
def constraintStarters : List String :=
  ["CONSTRAINT", "PRIMARY", "FOREIGN", "UNIQUE", "CHECK", "INDEX", "PERIOD"]

/-- Whether an element is a constraint. -/
def startsConstraint (element : String) : Bool :=
  match Cursor.ofText? element with
  | some cursor => cursor.skipBlanks.sees fun token => constraintStarters.any token.isBareWord
  | none => false

/-- An element of a body. -/
inductive TableElement where
  | column (definition : ColumnDefinition)
  | constraint (definition : ConstraintDefinition)
deriving Repr, DecidableEq, Inhabited

/-- The element with a text. -/
def element? (text : String) : Option TableElement :=
  if startsConstraint text then (run? constraint text).map .constraint
  else (run? column text).map .column

/-- The columns among elements. -/
def columnsOf (elements : List TableElement) : List ColumnDefinition :=
  elements.filterMap fun
    | .column definition => some definition
    | .constraint _ => none

/-- The constraints among elements. -/
def constraintsOf (elements : List TableElement) : List ConstraintDefinition :=
  elements.filterMap fun
    | .column _ => none
    | .constraint definition => some definition

/-- A body in parentheses; every element has to be a column or a constraint. -/
def tableBody (name : QualifiedName) : Reading TableDefinition := do
  match (← bodyElements).mapM element? with
  | some elements =>
    return { name, columns := columnsOf elements, constraints := constraintsOf elements }
  | none => failure

/-- A `CREATE TABLE`. -/
def table : Reading TableDefinition := do
  skipBlanks
  expect (·.isKeyword "CREATE")
  skipBlanks
  expect (·.isKeyword "TABLE")
  skipBlanks
  let name ← qualifiedName
  skipBlanks
  tableBody name

/-- A type that a script defines. -/
inductive UserType where
  | table (definition : TableDefinition)
  | scalar (definition : ScalarTypeDefinition)
deriving Repr, DecidableEq, Inhabited

/-- The nullability of a scalar type, which allows nulls unless it says otherwise. -/
def scalarNullability : Reading Bool := do
  if ← accepts (·.isKeyword "NOT") then
    skipBlanks
    expect (·.isKeyword "NULL")
    return false
  else return true

/-- A `CREATE TYPE`, either `AS TABLE` or `FROM` a built-in type. -/
def userType : Reading UserType := do
  skipBlanks
  expect (·.isKeyword "CREATE")
  skipBlanks
  expect (·.isKeyword "TYPE")
  skipBlanks
  let name ← qualifiedName
  skipBlanks
  if ← accepts (·.isKeyword "AS") then
    skipBlanks
    expect (·.isKeyword "TABLE")
    skipBlanks
    return .table (← tableBody name)
  else
    expect (·.isKeyword "FROM")
    skipBlanks
    -- The built-in type is checked where the model is built.
    let baseType ← declaredType
    skipBlanks
    return .scalar { name, baseType, isNullable := ← scalarNullability }

end SchemaPlan.Definition
