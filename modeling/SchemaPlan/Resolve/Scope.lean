import SchemaPlan.Join.FromClause
import SchemaPlan.Join.Nullability
import SchemaPlan.Schema.Basic

/-!
# The scope of a select

The sources of a select with their columns. A reference is looked up in the scope: with a
qualifier in the source of that name, without one in all sources. A source whose columns are not
known takes every column, as a value that cannot be traced.
-/

namespace SchemaPlan

open SchemaPlan.Sql SchemaPlan.Query

/-! ## Sources -/

/-- A column of a source. -/
structure SourceColumn where
  name : String
  type : TypeRow
  isNullable : Bool
deriving Repr, DecidableEq, Inhabited

/-- A schema column as the column of a source. -/
def Column.toSource (column : Column) : SourceColumn :=
  ⟨column.name, column.type, column.isNullable⟩

/-- A result column as the column of a source. -/
def ResultColumn.toSource (column : ResultColumn) : SourceColumn :=
  ⟨column.name, column.type, column.isNullable⟩

/-- A source of a select. -/
structure ScopeSource where
  /-- The name that results are traced to. -/
  identifier : String
  /-- Missing if the columns are not known. -/
  columns : Option (List SourceColumn)
  /-- A row of the select may lack the source. -/
  isForced : Bool
deriving Repr, DecidableEq, Inhabited

/-- The column of a name without regard to ASCII case. -/
def ScopeSource.column? (source : ScopeSource) (name : String) : Option SourceColumn :=
  source.columns.bind fun columns => columns.find? fun column => Text.sameText column.name name

/-- The sources of a select and the names they are exposed under. -/
structure Scope where
  sources : List ScopeSource
  names : SourceNames
deriving Repr, DecidableEq, Inhabited

/-- The last part of a dotted name. -/
def lastSegment (name : String) : String :=
  ((Text.splitWhere (· == '.') name).getLast?).getD name

/-! ## Result columns -/

/-- A result column that is the column of a source. -/
def tracedColumn (name : String) (source : ScopeSource) (column : SourceColumn) : ResultColumn :=
  { name
    type := column.type
    isNullable := column.isNullable || source.isForced
    provenance := .column source.identifier column.name }

/-- A result column of unknown type. -/
def untracedColumn (name : String) (provenance : Provenance) : ResultColumn :=
  { name, type := .unknown, isNullable := true, provenance }

/-! ## References -/

/-- What a reference stands for. -/
inductive ColumnMatch where
  | known (source : ScopeSource) (column : SourceColumn)
  /-- A column of a source without known columns, if there is only one such source. -/
  | untraced (source : Option ScopeSource)
deriving Repr, DecidableEq, Inhabited

namespace Scope

/-- The source that a qualifier names: the one exposed under it, or else the first whose name ends
in it. `shown` is the reference as it is reported. -/
def sourceNamed (scope : Scope) (qualifier shown : String) : Except ResolveError ScopeSource :=
  let found := match (scope.names.index? qualifier).bind (scope.sources[·]?) with
    | some source => some source
    | none => scope.sources.find? fun source =>
        Text.sameText (lastSegment source.identifier) qualifier
  match found with
  | some source => .ok source
  | none => .error (.unknownQualifier qualifier shown)

/-- The sources that have a column, each with the column. -/
def matches? (scope : Scope) (column : String) : List (ScopeSource × SourceColumn) :=
  scope.sources.filterMap fun source => (source.column? column).map fun found => (source, found)

/-- What a column stands for, with a qualifier or without. -/
def lookup (scope : Scope) (qualifier : Option String) (column shown : String) :
    Except ResolveError ColumnMatch :=
  match qualifier with
  | some qualifier => do
    let source ← scope.sourceNamed qualifier shown
    -- A source without known columns may have any.
    if source.columns.isNone then return .untraced (some source)
    match source.column? column with
    | some found => return .known source found
    | none => throw (.unresolvedColumn shown)
  | none =>
    match scope.matches? column, scope.sources.filter (·.columns.isNone) with
    -- One match decides, even where a source without known columns might have another.
    | [(source, found)], _ => .ok (.known source found)
    | [], [source] => .ok (.untraced (some source))
    -- Of several such sources none is more likely than the others.
    | [], _ :: _ => .ok (.untraced none)
    | [], [] => .error (.unresolvedColumn shown)
    | many, _ =>
      .error (.ambiguousColumn shown (Text.joinWith ", " (many.map (·.1.identifier))))

/-- The columns of sources in order, all of which have to be known. -/
def allColumns (shown : String) : List ScopeSource → Except ResolveError (List ResultColumn)
  | [] => .ok []
  | source :: rest =>
    match source.columns with
    | none => .error (.unexpandableWildcard shown)
    | some columns => do
      let more ← allColumns shown rest
      return columns.map (fun column => tracedColumn column.name source column) ++ more

/-- The columns that a star stands for. -/
def expandStar (scope : Scope) (qualifier : Option String) :
    Except ResolveError (List ResultColumn) := do
  match qualifier with
  | some qualifier =>
    let shown := qualifier ++ ".*"
    allColumns shown [← scope.sourceNamed qualifier shown]
  | none =>
    if scope.sources.isEmpty then throw (.unexpandableWildcard "*")
    allColumns "*" scope.sources

/-! ## Projections -/

/-- The result column of a reference. -/
def reference (scope : Scope) (qualifier : Option String) (column : String)
    (label : Option String) (shown : String) : Except ResolveError ResultColumn := do
  let name := label.getD column
  match ← scope.lookup qualifier column shown with
  | .known source found => return tracedColumn name source found
  | .untraced source =>
    return untracedColumn name (.unknownSource (source.map (·.identifier)))

/-- An expression without parentheses around it. -/
def unnested : Expr → Expr
  | .nested inner => unnested inner
  | expr => expr

/-- An expression and its alias. A comparison with a name on its left gives the name to what
stands on its right. -/
def aliasedValue : Expr → Option String → Expr × Option String
  | .binary (.ident name) "=" value, none =>
    -- A variable on the left is assigned to, and names no column.
    if Text.startsWith "@" name.value then (.binary (.ident name) "=" value, none)
    else (value, some name.value)
  | expr, label => (expr, label)

/-- The last two parts of a name, the qualifier first. -/
def lastTwo? : List Ident → Option (Ident × Ident)
  | [] => none
  | [_] => none
  | [qualifier, column] => some (qualifier, column)
  | _ :: rest => lastTwo? rest

/-- The result column of a projected expression, which is the `ordinal`-th of the result. -/
def projected (scope : Scope) (expr : Expr) (label : Option String) (ordinal : Nat) :
    Except ResolveError ResultColumn :=
  let (expr, label) := aliasedValue expr label
  let computed := untracedColumn (label.getD ("Column" ++ toString ordinal)) .expression
  match unnested expr with
  | .ident name =>
    if Text.startsWith "@@" name.value then .ok computed
    else if isVariable name.value then
      let variableName := withoutSign name.value
      .ok (untracedColumn (label.getD variableName) (.variable variableName))
    else scope.reference none name.value label name.value
  | .compound parts =>
    match lastTwo? parts with
    | some (qualifier, column) =>
      scope.reference (some qualifier.value) column.value label (Text.joinWith "." (nameValues parts))
    | none => .ok computed
  | _ => .ok computed

/-- The result columns of an item, the first of which is the `ordinal`-th of the result. -/
def item (scope : Scope) (ordinal : Nat) : SelectItem → Except ResolveError (List ResultColumn)
  | .unnamed expr => do return [← scope.projected expr none ordinal]
  | .aliased expr label => do return [← scope.projected expr (some label.value) ordinal]
  | .wildcard => scope.expandStar none
  -- The qualifier is cut off the text of the name, where a dot within quotes counts too.
  | .qualifiedWildcard qualifier => scope.expandStar (some (unquote (lastSegment (nameText qualifier))))

/-- The result columns of items, after `count` columns before them. -/
def items (scope : Scope) (count : Nat) : List SelectItem → Except ResolveError (List ResultColumn)
  | [] => .ok []
  | next :: rest => do
    let columns ← scope.item (count + 1) next
    let more ← scope.items (count + columns.length) rest
    return columns ++ more

end Scope

end SchemaPlan
