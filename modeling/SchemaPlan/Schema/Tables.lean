import SchemaPlan.Schema.Definitions
import SchemaPlan.Schema.Model

/-!
# Types and tables of a model

Declared types become rows of the catalog, directly or by way of an alias type. Columns of a key
and identity columns hold no nulls unless they say otherwise.
-/

namespace SchemaPlan

open SchemaPlan.Sql

/-! ## Types -/

/-- The catalog row of a built-in type. -/
def builtInRow? (declared : DeclaredType) : Option TypeRow :=
  if DeclaredType.isSystemSchema declared.schema then Catalog.ofSource? declared.name else none

/-- The alias type of a scalar type. -/
def aliasType (defs : Definitions) (scalar : ScalarTypeDefinition) : Except LoadError AliasType :=
  let base := scalar.baseType
  match builtInRow? base with
  | some type =>
    .ok { schema := defs.schemaOf scalar.name, name := scalar.name.name, type,
          isNullable := scalar.isNullable, precision := base.precision, scale := base.scale,
          length := base.length }
  | none => .error (.unknownType (defs.fullNameOf scalar.name) "FROM" base.text)

/-- The catalog row of a declared type, with the alias type if it is one. Built-in types come
first. -/
def resolveType? (defaultSchema : String) (aliases : List AliasType) (declared : DeclaredType) :
    Option (TypeRow × Option AliasType) :=
  match builtInRow? declared with
  | some type => some (type, none)
  | none =>
    let schema := declared.schema.getD defaultSchema
    let found := aliases.find? fun label => sameObject label.schema label.name schema declared.name
    found.map fun label => (label.type, some label)

/-! ## Columns -/

/-- A column of the model. -/
def buildColumn (defs : Definitions) (aliases : List AliasType) (object : String)
    (definition : ColumnDefinition) (isPrimaryKey : Bool) : Except LoadError Column :=
  let name := definition.name
  match definition.type with
  | none => .ok { name, type := .unknown, isNullable := true, isPrimaryKey }
  | some declared =>
    match resolveType? defs.defaultSchema aliases declared with
    | none => .error (.unknownType object name declared.text)
    | some (type, label) =>
      let isKey := isPrimaryKey || definition.isIdentity
      .ok
        { name, type, isPrimaryKey
          isNullable := (definition.nullability.or (label.map (·.isNullable))).getD !isKey
          isIdentity := definition.isIdentity
          precision := declared.precision.or (label.bind (·.precision))
          scale := declared.scale.or (label.bind (·.scale))
          length := declared.length.or (label.bind (·.length)) }

/-- The columns of an object, whose names have to be distinct; `seen` are the names before. -/
def buildColumns (defs : Definitions) (aliases : List AliasType) (object : String)
    (keyColumns seen : List String) : List ColumnDefinition → Except LoadError (List Column)
  | [] => .ok []
  | definition :: rest => do
    if seen.any (Text.sameText · definition.name) then
      throw (.duplicateColumn object definition.name)
    let isPrimaryKey := definition.isPrimaryKey || keyColumns.any (Text.sameText · definition.name)
    let column ← buildColumn defs aliases object definition isPrimaryKey
    let more ← buildColumns defs aliases object keyColumns (definition.name :: seen) rest
    return column :: more

/-- A table or a table type of the model. -/
def buildRelation (defs : Definitions) (aliases : List AliasType) (keyColumns : List String)
    (definition : TableDefinition) : Except LoadError Relation := do
  let columns ← buildColumns defs aliases (defs.fullNameOf definition.name) keyColumns []
    definition.columns
  return { schema := defs.schemaOf definition.name, name := definition.name.name, columns }

/-- A table of the model. -/
def buildTable (defs : Definitions) (aliases : List AliasType) (definition : TableDefinition) :
    Except LoadError Relation :=
  buildRelation defs aliases (defs.primaryKey (defs.keyOf definition.name)) definition

/-- A table whose columns know their relationships. -/
def withRelationships (index : RelationshipIndex) (table : Relation) : Relation :=
  { table with
    columns := table.columns.map fun column =>
      { column with
        parents := index.parents table.schema table.name column.name
        children := index.children table.schema table.name column.name } }

/-- A model of the types and tables of definitions. -/
def buildTables (defs : Definitions) : Except LoadError SchemaModel := do
  let aliasTypes ← defs.scalarTypes.mapM (aliasType defs)
  let tableTypes ← defs.tableTypes.mapM (buildRelation defs aliasTypes [])
  let tables ← defs.tables.mapM (buildTable defs aliasTypes)
  let relationships := RelationshipIndex.ofList defs.foreignKeys
  return { defaultSchema := defs.defaultSchema, aliasTypes, tableTypes, relationships,
           tables := tables.map (withRelationships relationships) }

end SchemaPlan
