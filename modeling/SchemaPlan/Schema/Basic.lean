import SchemaPlan.Catalog
import SchemaPlan.Join.Aliases
import SchemaPlan.Sql.DeclaredType

/-!
# Schema objects

The objects of a schema once every type is known: tables, views, types and procedures, and the
columns that the selects of a procedure give back.
-/

namespace SchemaPlan

open SchemaPlan.Sql

/-! ## Columns -/

/-- One side of a foreign key: a table and some of its columns. -/
structure KeySide where
  database : Option String
  schema : Option String
  table : String
  columns : List String
deriving Repr, DecidableEq, Inhabited

/-- A column of a table, a view or a table type. -/
structure Column where
  name : String
  /-- The row of the type, or that of unknown types for computed columns. -/
  type : TypeRow
  isNullable : Bool
  isIdentity : Bool := false
  precision : Option Nat := none
  scale : Option Nat := none
  length : Option TypeLength := none
  isPrimaryKey : Bool := false
  /-- What the column refers to. -/
  parents : List KeySide := []
  /-- What refers to the column. -/
  children : List KeySide := []
deriving Repr, DecidableEq, Inhabited

/-- A column is part of a foreign key if it refers to something. -/
def Column.isForeignKey (column : Column) : Bool := !column.parents.isEmpty

/-- The first column of a name without regard to ASCII case. -/
def findColumn? (columns : List Column) (name : String) : Option Column :=
  columns.find? fun column => Text.sameText column.name name

/-! ## Objects -/

/-- A schema and a name, each in brackets. -/
def fullName (schema name : String) : String :=
  "[" ++ schema ++ "].[" ++ name ++ "]"

/-- A table, a view or a table type: columns under a name. -/
structure Relation where
  schema : String
  name : String
  columns : List Column
deriving Repr, DecidableEq, Inhabited

namespace Relation

/-- The name in brackets. -/
def fullName (relation : Relation) : String := SchemaPlan.fullName relation.schema relation.name

/-- The column of a name. -/
def column? (relation : Relation) (name : String) : Option Column :=
  findColumn? relation.columns name

/-- The names of the columns that form the primary key. -/
def primaryKey (relation : Relation) : List String :=
  (relation.columns.filter (·.isPrimaryKey)).map (·.name)

end Relation

/-- A type that stands for a type of the catalog. -/
structure AliasType where
  schema : String
  name : String
  type : TypeRow
  isNullable : Bool
  precision : Option Nat
  scale : Option Nat
  length : Option TypeLength
deriving Repr, DecidableEq, Inhabited

/-! ## Procedures -/

/-- What a parameter holds. -/
inductive ParameterKind where
  | scalar (type : TypeRow)
  | table (shape : Relation)
deriving Repr, DecidableEq, Inhabited

/-- A parameter of a procedure; the name is without its sign. -/
structure Parameter where
  name : String
  isOutput : Bool
  defaultValue : Option String
  kind : ParameterKind
deriving Repr, DecidableEq, Inhabited

/-- The row shape of a parameter that holds a table. -/
def Parameter.shape? (parameter : Parameter) : Option Relation :=
  match parameter.kind with
  | .table shape => some shape
  | .scalar _ => none

/-- The type of a parameter that holds a single value. -/
def Parameter.type? (parameter : Parameter) : Option TypeRow :=
  match parameter.kind with
  | .scalar type => some type
  | .table _ => none

/-- Where the value of a result column comes from. -/
inductive Provenance where
  /-- A column of a source. -/
  | column (source column : String)
  /-- A variable or a parameter. -/
  | variable (name : String)
  /-- A literal, a call or another computed value. -/
  | expression
  /-- A source without known columns; it is missing where there are several. -/
  | unknownSource (source : Option String)
deriving Repr, DecidableEq, Inhabited

/-- A column that a select gives back. -/
structure ResultColumn where
  name : String
  type : TypeRow
  isNullable : Bool
  provenance : Provenance
deriving Repr, DecidableEq, Inhabited

/-- The rows that a select gives back. -/
structure ResultSet where
  columns : List ResultColumn
  /-- There is at most one row. -/
  isSingleRow : Bool
  /-- Each alias with the name of the table or view behind it. -/
  aliases : SortedMap
deriving Repr, DecidableEq, Inhabited

/-- A procedure with the result sets it gives back in order. -/
structure Procedure where
  schema : String
  /-- The name without the prefix that names of procedures share. -/
  name : String
  declaredName : String
  parameters : List Parameter
  results : List ResultSet
deriving Repr, DecidableEq, Inhabited

/-- The declared name in brackets. -/
def Procedure.fullName (procedure : Procedure) : String :=
  SchemaPlan.fullName procedure.schema procedure.declaredName

end SchemaPlan
