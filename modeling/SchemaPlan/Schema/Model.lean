import SchemaPlan.Resolve.Query
import SchemaPlan.Schema.Relationships

/-!
# The model of a schema

Everything that is known of a schema. Objects are looked up by schema and name without regard to
ASCII case.
-/

namespace SchemaPlan

/-- Whether two pairs of a schema and a name are the same without regard to ASCII case. -/
def sameObject (schema name otherSchema otherName : String) : Bool :=
  Text.sameText schema otherSchema && Text.sameText name otherName

/-- The relation of a schema and a name. -/
def findRelation? (relations : List Relation) (schema name : String) : Option Relation :=
  relations.find? fun relation => sameObject relation.schema relation.name schema name

/-- The tables, views, types, relationships and procedures of a schema. -/
structure SchemaModel where
  /-- The schema of names without one. -/
  defaultSchema : String
  tables : List Relation := []
  views : List Relation := []
  tableTypes : List Relation := []
  aliasTypes : List AliasType := []
  relationships : RelationshipIndex := {}
  procedures : List Procedure := []
deriving Repr, DecidableEq, Inhabited

namespace SchemaModel

/-- The table of a schema and a name. -/
def table? (model : SchemaModel) (schema name : String) : Option Relation :=
  findRelation? model.tables schema name

/-- The view of a schema and a name. -/
def view? (model : SchemaModel) (schema name : String) : Option Relation :=
  findRelation? model.views schema name

/-- The table type of a schema and a name. -/
def tableType? (model : SchemaModel) (schema name : String) : Option Relation :=
  findRelation? model.tableTypes schema name

/-- The alias type of a schema and a name. -/
def aliasType? (model : SchemaModel) (schema name : String) : Option AliasType :=
  model.aliasTypes.find? fun type => sameObject type.schema type.name schema name

/-- The procedure of a name, with or without the common prefix. -/
def procedure? (model : SchemaModel) (name : String) : Option Procedure :=
  model.procedures.find? fun procedure =>
    Text.sameText procedure.name name || Text.sameText procedure.declaredName name

/-- The columns of the table or view of a schema and a name. -/
def objectColumns? (model : SchemaModel) (schema name : String) : Option (List Column) :=
  ((model.table? schema name).map (·.columns)).or ((model.view? schema name).map (·.columns))

/-- What a select can name. -/
def catalog (model : SchemaModel) : ObjectCatalog :=
  ⟨model.defaultSchema, model.objectColumns?⟩

end SchemaModel

end SchemaPlan
