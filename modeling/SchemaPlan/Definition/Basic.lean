import SchemaPlan.Grammar.Query
import SchemaPlan.Sql.DeclaredType

/-!
# Definitions of schema objects

What the statements of a script define: tables, views, types, procedures and constraints that are
added to a table.
-/

namespace SchemaPlan

open SchemaPlan.Sql

/-- The side of a foreign key that is referred to. -/
structure ColumnReference where
  table : QualifiedName
  /-- Empty where the primary key of the table is meant. -/
  columns : List String
deriving Repr, DecidableEq, Inhabited

/-- A column of a table or of a table type. -/
structure ColumnDefinition where
  name : String
  /-- Computed columns declare no type. -/
  type : Option DeclaredType := none
  /-- `some true` for `NULL`, `some false` for `NOT NULL`, nothing if neither is written. -/
  nullability : Option Bool := none
  isIdentity : Bool := false
  isPrimaryKey : Bool := false
  references : Option ColumnReference := none
deriving Repr, DecidableEq, Inhabited

/-- A constraint of a table. -/
inductive ConstraintDefinition where
  | primaryKey (name : Option String) (columns : List String)
  | foreignKey (name : Option String) (columns : List String) (references : ColumnReference)
  /-- A constraint that defines no key. -/
  | other (name : Option String)
deriving Repr, DecidableEq, Inhabited

/-- A table or a table type. -/
structure TableDefinition where
  name : QualifiedName
  columns : List ColumnDefinition
  constraints : List ConstraintDefinition
deriving Repr, DecidableEq, Inhabited

/-- A view with the names that are given to its columns, if any. -/
structure ViewDefinition where
  name : QualifiedName
  columns : List String
  query : Query.Query

/-- A type that stands for a built-in type. -/
structure ScalarTypeDefinition where
  name : QualifiedName
  baseType : DeclaredType
  isNullable : Bool
deriving Repr, DecidableEq, Inhabited

/-- A parameter of a procedure; the name is without its sign. -/
structure ParameterDefinition where
  name : String
  type : DeclaredType
  isOutput : Bool := false
  isReadonly : Bool := false
  defaultValue : Option String := none
deriving Repr, DecidableEq, Inhabited

/-- A select of a procedure body with the line, counted from one, on which it starts. -/
structure BodySelect where
  text : String
  line : Nat
  query : Except Grammar.SyntaxError Query.Query

/-- A procedure with the selects of its body in order. -/
structure ProcedureDefinition where
  name : QualifiedName
  parameters : List ParameterDefinition
  selects : List BodySelect

/-- What a statement means for the schema. -/
inductive Statement where
  | table (definition : TableDefinition)
  | view (definition : ViewDefinition)
  | tableType (definition : TableDefinition)
  | scalarType (definition : ScalarTypeDefinition)
  | addConstraint (table : QualifiedName) (constraint : ConstraintDefinition)
  | procedure (definition : ProcedureDefinition)
  /-- A statement of no interest to the schema, by its first words. -/
  | other (description : String)

end SchemaPlan
