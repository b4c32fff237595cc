import SchemaPlan.Resolve.Distinct
import SchemaPlan.Resolve.Scope

/-!
# The columns of a query

A query is resolved against the objects of a schema and the parameters around it: each column is
traced to its source, its type and whether it may be null. The shape of a set operation is that of
its first arm. A common table expression can be named by those after it and by the query.
-/

namespace SchemaPlan

open SchemaPlan.Sql SchemaPlan.Query

/-! ## What a query can name -/

/-- The tables and views of a schema. -/
structure ObjectCatalog where
  /-- The schema of names without one. -/
  defaultSchema : String
  /-- The columns of the table or view of a schema and a name. -/
  columns? : String → String → Option (List Column)

/-- The columns of a common table expression. -/
structure CteShape where
  name : String
  columns : List SourceColumn
deriving Repr, DecidableEq, Inhabited

/-- What surrounds a query: the objects of the schema and the parameters. -/
structure Resolver where
  catalog : ObjectCatalog
  parameters : List Parameter

/-- What is known of a query. -/
structure ResolvedQuery where
  columns : List ResultColumn
  isSingleRow : Bool
  aliases : SortedMap
  /-- The rows go to the caller, not into variables or a table. -/
  returnsRows : Bool
deriving Repr, DecidableEq, Inhabited

/-- The columns under new names, as far as there are any. -/
def renamed : List String → List SourceColumn → List SourceColumn
  | name :: names, column :: columns => { column with name } :: renamed names columns
  | _, columns => columns

/-- The columns of a named source; the last common table expression is first in `ctes`. -/
def Resolver.sourceColumns? (r : Resolver) (ctes : List CteShape) (object : QualifiedName) :
    Option (List SourceColumn) :=
  if Text.startsWith "@" object.name then
    -- A variable that holds rows; only those that are parameters have a known type.
    let parameter := r.parameters.find? fun parameter =>
      Text.sameText parameter.name (withoutSign object.name)
    (parameter.bind Parameter.shape?).map fun shape => shape.columns.map Column.toSource
  else if Text.startsWith "#" object.name then none
  else
    -- A name with a schema is never that of a common table expression.
    let cte :=
      if object.schema.isNone && object.database.isNone then
        ctes.find? fun cte => Text.sameText cte.name object.name
      else none
    match cte with
    | some cte => some cte.columns
    | none =>
      let schema := object.schema.getD r.catalog.defaultSchema
      (r.catalog.columns? schema object.name).map fun columns => columns.map Column.toSource

/-! ## The rows of a select -/

/-- Whether an item assigns to a variable. -/
def assignsVariable : SelectItem → Bool
  | .aliased _ label => isVariable label.value
  | .unnamed (.binary (.ident name) "=" _) => isVariable name.value
  | _ => false

/-- Whether a select is limited to one row. -/
def isTopOne (top : Option Top) : Bool :=
  match top with
  | some ⟨_, true, _⟩ => false
  | some ⟨.number n, false, _⟩ => n == 1
  | some ⟨.expr amount, false, _⟩ =>
    Text.trimWhere (fun c => c == '(' || c == ')' || Text.isSpace c) amount.text == "1"
  | none => false

/-- Functions that make one row of many. -/
def aggregates : List String := ["COUNT", "COUNT_BIG", "SUM", "AVG", "MIN", "MAX"]

/-- The name of the function that is called, if an expression is a call. -/
def calledName? : Expr → Option (List Ident)
  | .call name _ _ => some name
  | .form [.text "\x7bfn ", .expr (.call name _ _), .text "\x7d"] => some name
  | _ => none

/-- The value of an expression that may be preceded by a name and an equals sign. -/
def namedValue (expr : Expr) : Expr :=
  match Scope.unnested expr with
  | .binary _ "=" value => Scope.unnested value
  | value => value

/-- Whether an item is a call of an aggregate. -/
def isAggregate (item : SelectItem) : Bool :=
  let isCall := fun expr => (calledName? (namedValue expr)).any fun name =>
    name.getLast?.any fun part => aggregates.any (Text.sameText · part.value)
  match item with
  | .unnamed expr => isCall expr
  | .aliased expr _ => isCall expr
  | _ => false

/-- Whether rows are grouped. -/
def isGrouped : Grouping → Bool
  | .ungrouped => false
  | .all => true
  | .by exprs => !exprs.isEmpty

/-- Whether a select has a single aggregate and no groups. -/
def isUngroupedAggregate (select : Select) : Bool :=
  !isGrouped select.grouping &&
    match select.projection with
    | [item] => isAggregate item
    | _ => false

/-- What is known of a select in a scope. -/
def resolveSelect (select : Select) (scope : Scope) : Except ResolveError ResolvedQuery := do
  let columns := distinctNames [] (← scope.items 0 select.projection)
  let isSingleRow := isTopOne select.top ||
    (columns.length == 1 && (select.sources.isEmpty || isUngroupedAggregate select))
  let returnsRows := select.into.isNone && !select.projection.any assignsVariable
  return { columns, isSingleRow, aliases := scope.names.aliases, returnsRows }

/-- What is known of literal rows. -/
def resolveRows (rows : List (List Expr)) : ResolvedQuery :=
  let width := (rows.head?.map List.length).getD 0
  { columns := (List.range width).map fun i =>
      untracedColumn ("Column" ++ toString (i + 1)) .expression
    isSingleRow := rows.length == 1
    aliases := []
    returnsRows := true }

/-- Whether a body has rows of its own. -/
def yieldsRows : Body → Bool
  | .select _ => true
  | .values _ _ => true
  | .nested ⟨_, _, body, _⟩ => yieldsRows body
  | .operation left _ _ => yieldsRows left
  | .other _ => false

/-! ## Queries -/

/-- A leaf as a source of the scope. -/
def leafSource (forced : List String) (leaf : Leaf) (columns : Option (List SourceColumn)) :
    ScopeSource :=
  let identifier := match leaf with
    | .source object _ => object.dotted
    | .derived label _ _ => label.getD ""
    | .function name _ => name
  { identifier, columns, isForced := leaf.exposedName?.any (isForced forced) }

mutual

/-- What is known of a query. -/
def Resolver.query (r : Resolver) (ctes : List CteShape) :
    Query → Except ResolveError ResolvedQuery
  | ⟨_, own, body, _⟩ => do
    let ctes ← r.withCtes ctes own
    r.body ctes body

/-- The common table expressions with further ones, the last one first. -/
def Resolver.withCtes (r : Resolver) (ctes : List CteShape) :
    List Cte → Except ResolveError (List CteShape)
  | [] => .ok ctes
  | ⟨label, query, _⟩ :: rest => do
    let resolved ← r.query ctes query
    let names := label.columns.map aliasColumnName
    let columns := renamed names (resolved.columns.map ResultColumn.toSource)
    r.withCtes (⟨label.name.value, columns⟩ :: ctes) rest

/-- What is known of a body. -/
def Resolver.body (r : Resolver) (ctes : List CteShape) :
    Body → Except ResolveError ResolvedQuery
  | .select ⟨quantifier, top, projection, into, sources, filter, grouping, tail⟩ => do
    -- Names that collide are reported before any source is resolved.
    let tree ← JoinTree.ofSources sources
    let names ← SourceNames.ofTree tree
    let found ← r.sources ctes (forcedNames tree) sources
    resolveSelect ⟨quantifier, top, projection, into, sources, filter, grouping, tail⟩
      ⟨found, names⟩
  | .nested query => r.query ctes query
  | .operation left _ _ => do
    -- Further arms add rows, but no names and no types.
    return { ← r.body ctes left with isSingleRow := false }
  | .values _ rows => .ok (resolveRows rows)
  | .other pieces => .error (.malformedSelect ("unsupported query body: " ++ piecesText pieces))

/-- The sources of a select in the order of the leaves. -/
def Resolver.sources (r : Resolver) (ctes : List CteShape) (forced : List String) :
    List JoinedSource → Except ResolveError (List ScopeSource)
  | [] => .ok []
  | ⟨relation, joins⟩ :: rest => do
    let first ← r.factor ctes forced relation
    let joined ← r.joined ctes forced joins
    let more ← r.sources ctes forced rest
    return first ++ joined ++ more

/-- The sources on the right sides of joins. -/
def Resolver.joined (r : Resolver) (ctes : List CteShape) (forced : List String) :
    List Join → Except ResolveError (List ScopeSource)
  | [] => .ok []
  | ⟨_, _, relation, _⟩ :: rest => do
    let first ← r.factor ctes forced relation
    let more ← r.joined ctes forced rest
    return first ++ more

/-- The sources of a factor. -/
def Resolver.factor (r : Resolver) (ctes : List CteShape) (forced : List String) :
    Factor → Except ResolveError (List ScopeSource)
  | .table name arguments _ label _ => do
    let leaf ← namedLeaf name arguments.isSome label
    let columns := match leaf with
      | .source object _ => r.sourceColumns? ctes object
      | _ => none
    return [leafSource forced leaf columns]
  | .derived _ query label => do
    let names := (label.map fun a => a.columns.map aliasColumnName).getD []
    let leaf := Leaf.derived (label.map (·.name.value)) names query
    if yieldsRows query.body then
      let resolved ← r.query ctes query
      let columns := renamed names (resolved.columns.map ResultColumn.toSource)
      return [leafSource forced leaf (some columns)]
    else
      -- The names listed for a statement of unknown shape are all that is known of it.
      let columns := names.map fun name => SourceColumn.mk name .unknown true
      return [leafSource forced leaf (if names.isEmpty then none else some columns)]
  | .joined ⟨relation, joins⟩ _ => do
    let first ← r.factor ctes forced relation
    let more ← r.joined ctes forced joins
    return first ++ more
  | .special pieces label =>
    .ok [leafSource forced (.function (piecesText pieces ++ aliasText label) none) none]

end

/-- The rows that a select gives to the caller; nothing if it gives none. -/
def Resolver.resultSet? (r : Resolver) (query : Query) : Except ResolveError (Option ResultSet) := do
  let resolved ← r.query [] query
  if resolved.returnsRows then
    return some ⟨resolved.columns, resolved.isSingleRow, resolved.aliases⟩
  else return none

/-- The columns of a query. -/
def Resolver.columns (r : Resolver) (query : Query) : Except ResolveError (List ResultColumn) := do
  return (← r.query [] query).columns

end SchemaPlan
