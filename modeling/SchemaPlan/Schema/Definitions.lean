import SchemaPlan.LoadError
import SchemaPlan.Schema.Relationships
import SchemaPlan.Script.Statements

/-!
# Definitions of a schema

The statements that matter to a schema, grouped by kind and in the order of the scripts, and what
follows from them alone: names that repeat, the columns of primary keys, and foreign keys.
-/

namespace SchemaPlan

open SchemaPlan.Sql

/-- Definitions by kind. -/
structure Definitions where
  /-- The schema of names without one. -/
  defaultSchema : String
  tables : List TableDefinition
  views : List ViewDefinition
  tableTypes : List TableDefinition
  scalarTypes : List ScalarTypeDefinition
  addedConstraints : List (QualifiedName × ConstraintDefinition)
  procedures : List ProcedureDefinition

namespace Definitions

/-- The definitions among statements. -/
def ofStatements (defaultSchema : String) (statements : List Statement) : Definitions :=
  { defaultSchema
    tables := statements.filterMap fun
      | .table definition => some definition
      | _ => none
    views := statements.filterMap fun
      | .view definition => some definition
      | _ => none
    tableTypes := statements.filterMap fun
      | .tableType definition => some definition
      | _ => none
    scalarTypes := statements.filterMap fun
      | .scalarType definition => some definition
      | _ => none
    addedConstraints := statements.filterMap fun
      | .addConstraint table constraint => some (table, constraint)
      | _ => none
    procedures := statements.filterMap fun
      | .procedure definition => some definition
      | _ => none }

/-! ## Names -/

/-- The key under which an object is known. -/
def objectKey (schema name : String) : String :=
  Text.lower (schema ++ "." ++ name)

/-- The schema of a name. -/
def schemaOf (defs : Definitions) (name : QualifiedName) : String :=
  name.schema.getD defs.defaultSchema

/-- The key of the object that a name stands for. -/
def keyOf (defs : Definitions) (name : QualifiedName) : String :=
  objectKey (defs.schemaOf name) name.name

/-- The name of an object in brackets. -/
def fullNameOf (defs : Definitions) (name : QualifiedName) : String :=
  fullName (defs.schemaOf name) name.name

/-- Fails at the first name that stands for the object of an earlier one, or of one in `seen`. -/
def requireDistinct (defs : Definitions) (seen : List String) :
    List QualifiedName → Except LoadError Unit
  | [] => .ok ()
  | name :: rest =>
    let key := defs.keyOf name
    if seen.contains key then .error (.duplicateObject (defs.fullNameOf name))
    else defs.requireDistinct (key :: seen) rest

/-- Tables, views and procedures share their names, and so do table types and scalar types. -/
def checkNames (defs : Definitions) : Except LoadError Unit := do
  defs.requireDistinct [] (defs.tables.map (·.name) ++ defs.views.map (·.name) ++
    defs.procedures.map (·.name))
  defs.requireDistinct [] (defs.tableTypes.map (·.name) ++ defs.scalarTypes.map (·.name))

/-! ## Keys -/

/-- The columns of a constraint that is a primary key. -/
def primaryKeyColumns? : ConstraintDefinition → Option (List String)
  | .primaryKey _ columns => some columns
  | _ => none

/-- The columns that a table declares as its primary key, in its columns and its constraints. -/
def ownKeyColumns (table : TableDefinition) : List String :=
  (table.columns.filter (·.isPrimaryKey)).map (·.name) ++
    (table.constraints.filterMap primaryKeyColumns?).flatten

/-- The columns that are declared as primary keys, each with its table. -/
def keyDeclarations (defs : Definitions) : List (QualifiedName × List String) :=
  defs.tables.map (fun table => (table.name, ownKeyColumns table)) ++
    defs.addedConstraints.filterMap fun (table, constraint) =>
      (primaryKeyColumns? constraint).map fun columns => (table, columns)

/-- The names without those that repeat an earlier one, without regard to ASCII case. -/
def withoutRepeats (seen : List String) : List String → List String
  | [] => []
  | name :: rest =>
    if seen.any (Text.sameText · name) then withoutRepeats seen rest
    else name :: withoutRepeats (name :: seen) rest

/-- The columns of the primary key of the object with a key. -/
def primaryKey (defs : Definitions) (key : String) : List String :=
  let declared := defs.keyDeclarations.filter fun (table, _) => defs.keyOf table == key
  withoutRepeats [] (declared.map (·.2)).flatten

/-- The foreign key of a table. A reference without columns is to the primary key. -/
def foreignKey (defs : Definitions) (owner : QualifiedName) (name : Option String)
    (columns : List String) (reference : ColumnReference) : ForeignKey :=
  let target := reference.table
  { name
    schema := defs.schemaOf owner
    table := owner.name
    columns
    referenced :=
      { database := target.database
        schema := some (defs.schemaOf target)
        table := target.name
        columns :=
          if reference.columns.isEmpty then defs.primaryKey (defs.keyOf target)
          else reference.columns } }

/-- The foreign key that a constraint adds to a table, if it is one. -/
def constraintKey? (defs : Definitions) (owner : QualifiedName) :
    ConstraintDefinition → Option ForeignKey
  | .foreignKey name columns reference => some (defs.foreignKey owner name columns reference)
  | _ => none

/-- The foreign keys that a table declares, those of its columns first. -/
def ownForeignKeys (defs : Definitions) (table : TableDefinition) : List ForeignKey :=
  (table.columns.filterMap fun column =>
    column.references.map (defs.foreignKey table.name none [column.name])) ++
    table.constraints.filterMap (defs.constraintKey? table.name)

/-- All foreign keys: those of the tables, then those that are added to a table. -/
def foreignKeys (defs : Definitions) : List ForeignKey :=
  (defs.tables.map defs.ownForeignKeys).flatten ++
    defs.addedConstraints.filterMap fun (table, constraint) => defs.constraintKey? table constraint

end Definitions

end SchemaPlan
