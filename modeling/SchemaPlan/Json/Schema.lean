import SchemaPlan.Json.Basic
import SchemaPlan.Schema.Model

/-!
# Documents of schemas

The JSON values of the objects of a schema. What depends on the kind of a thing stands next to a
field that names the kind.
-/

namespace SchemaPlan

open SchemaPlan.Sql

/-- The value of a row of the type catalog. -/
def TypeRow.toJson (row : TypeRow) : Json :=
  .object
    [("source_name", .text row.sourceName),
     ("host_nullable", .text row.hostNullable),
     ("host_stripped", .text row.hostStripped),
     ("binding_tag", .text row.bindingTag),
     ("reader_accessor", .optional .text row.readerAccessor),
     ("legacy_accessor", .optional .text row.legacyAccessor),
     ("db_type", .text row.dbType)]

/-- The value of one side of a foreign key. -/
def KeySide.toJson (side : KeySide) : Json :=
  .object
    [("database", .optional .text side.database),
     ("schema", .optional .text side.schema),
     ("table_or_view", .text side.table),
     ("columns", .texts side.columns)]

/-- The value of a length, with `-1` for the greatest one. -/
def lengthToJson (length : TypeLength) : Json := .number length.toInt

/-- The value of a column. -/
def Column.toJson (column : Column) : Json :=
  .object
    [("name", .text column.name),
     ("type", column.type.toJson),
     ("is_identity", .bool column.isIdentity),
     ("is_nullable", .bool column.isNullable),
     ("precision", .optional .natural column.precision),
     ("scale", .optional .natural column.scale),
     ("length", .optional lengthToJson column.length),
     ("is_primary_key", .bool column.isPrimaryKey),
     ("is_foreign_key", .bool column.isForeignKey),
     ("parent_relationships", .list KeySide.toJson column.parents),
     ("child_relationships", .list KeySide.toJson column.children)]

/-- The value of a table, a view or a table type. -/
def Relation.toJson (relation : Relation) : Json :=
  .object
    [("schema", .text relation.schema),
     ("name", .text relation.name),
     ("columns", .list Column.toJson relation.columns)]

/-- The value of an alias type. -/
def AliasType.toJson (type : AliasType) : Json :=
  .object
    [("schema", .text type.schema),
     ("name", .text type.name),
     ("base_type", type.type.toJson),
     ("nullable", .bool type.isNullable),
     ("precision", .optional .natural type.precision),
     ("scale", .optional .natural type.scale),
     ("length", .optional lengthToJson type.length)]

/-- The fields of a kind of parameter. -/
def ParameterKind.fields : ParameterKind → List (String × Json)
  | .scalar type => [("kind", .text "scalar"), ("type", type.toJson)]
  | .table shape => [("kind", .text "table_value"), ("shape", shape.toJson)]

/-- The value of a parameter. -/
def Parameter.toJson (parameter : Parameter) : Json :=
  .object <|
    [("name", .text parameter.name),
     ("is_output", .bool parameter.isOutput),
     ("default_value", .optional .text parameter.defaultValue)] ++ parameter.kind.fields

/-- The value of a provenance. -/
def Provenance.toJson : Provenance → Json
  | .column source name =>
    .object [("kind", .text "column"), ("source", .text source), ("column", .text name)]
  | .variable name => .object [("kind", .text "variable"), ("name", .text name)]
  | .expression => .object [("kind", .text "expression")]
  | .unknownSource source =>
    .object [("kind", .text "opaque_source"), ("source", .optional .text source)]

/-- The value of a result column. -/
def ResultColumn.toJson (column : ResultColumn) : Json :=
  .object
    [("name", .text column.name),
     ("type", column.type.toJson),
     ("is_nullable", .bool column.isNullable),
     ("provenance", column.provenance.toJson)]

/-- The value of a result set. -/
def ResultSet.toJson (result : ResultSet) : Json :=
  .object
    [("columns", .list ResultColumn.toJson result.columns),
     ("is_single_row", .bool result.isSingleRow),
     ("table_aliases", .object (result.aliases.map fun (label, name) => (label, .text name)))]

/-- The value of a procedure. -/
def Procedure.toJson (procedure : Procedure) : Json :=
  .object
    [("schema", .text procedure.schema),
     ("name", .text procedure.name),
     ("raw_name", .text procedure.declaredName),
     ("parameters", .list Parameter.toJson procedure.parameters),
     ("selects", .list ResultSet.toJson procedure.results)]

/-- The value of a model. -/
def SchemaModel.toJson (model : SchemaModel) : Json :=
  .object
    [("default_schema", .text model.defaultSchema),
     ("tables", .list Relation.toJson model.tables),
     ("views", .list Relation.toJson model.views),
     ("table_types", .list Relation.toJson model.tableTypes),
     ("alias_types", .list AliasType.toJson model.aliasTypes),
     ("procedures", .list Procedure.toJson model.procedures)]

end SchemaPlan
