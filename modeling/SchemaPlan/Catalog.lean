import SchemaPlan.Text.Basic

/-!
# Type catalog

Each SQL type has one row: its names in the host program, the tag that binds a parameter of the
type, and the accessors that read a value of it. Values whose type is not known have a row of
their own, which is the only one without a source name.
-/

namespace SchemaPlan

/-- The ways in which a type is spelled. -/
inductive Spelling where
  /-- The name of the type in SQL. -/
  | sourceName
  /-- The host type that can hold a null. -/
  | hostNullable
  /-- The host type without nulls. -/
  | hostStripped
  /-- The tag that binds a parameter. -/
  | bindingTag
  /-- The accessor that reads a value in sequence. -/
  | readerAccessor
  /-- The accessor of the older interface. -/
  | legacyAccessor
  /-- The tag of the generic interface. -/
  | dbType
deriving Repr, DecidableEq, Inhabited

/-- The spellings of a type. -/
structure TypeRow where
  sourceName : String
  hostNullable : String
  hostStripped : String
  bindingTag : String
  readerAccessor : Option String
  legacyAccessor : Option String
  dbType : String
deriving Repr, DecidableEq, Inhabited

namespace TypeRow

/-- The row of values whose type cannot be told. -/
def unknown : TypeRow :=
  ⟨"", "Object", "Object", "Variant", some "GetValue", none, "Object"⟩

/-- Whether a row is that of values whose type cannot be told. -/
def isUnknown (row : TypeRow) : Bool := row.sourceName == ""

/-- A spelling of the type; only accessors may be missing. -/
def get? (row : TypeRow) : Spelling → Option String
  | .sourceName => some row.sourceName
  | .hostNullable => some row.hostNullable
  | .hostStripped => some row.hostStripped
  | .bindingTag => some row.bindingTag
  | .readerAccessor => row.readerAccessor
  | .legacyAccessor => row.legacyAccessor
  | .dbType => some row.dbType

/-- The host type of a value that may or may not be null. -/
def hostType (row : TypeRow) (isNullable : Bool) : String :=
  if isNullable then row.hostNullable else row.hostStripped

/-- Value types take a mark to hold a null. -/
def isNullableValueType (row : TypeRow) : Bool := Text.endsWith "?" row.hostNullable

/-- Binary values are read into a buffer. -/
def isBinary (row : TypeRow) : Bool := row.readerAccessor == some "GetBytes"

/-- The method that writes a value of the type to a record, named after the one that reads it. -/
def recordSetter (row : TypeRow) : String :=
  match row.readerAccessor.bind (Text.after? "Get") with
  | some rest => "Set" ++ rest
  | none => "SetValue"

end TypeRow

namespace Catalog

/-- A row of the catalog: SQL name, host types, binding tag, older accessor, generic tag and
accessor. -/
def row (sourceName hostNullable hostStripped bindingTag : String) (legacyAccessor : Option String)
    (dbType : String) (readerAccessor : Option String) : TypeRow :=
  { sourceName, hostNullable, hostStripped, bindingTag, readerAccessor, legacyAccessor, dbType }

/-- The rows in the order in which they are looked up. -/
def rows : List TypeRow :=
  [row "bigint" "Int64?" "Int64" "BigInt" (some "GetSqlInt64") "Int64" (some "GetInt64"),
   row "binary" "Byte[]" "Byte[]" "VarBinary" (some "GetSqlBinary") "Binary" (some "GetBytes"),
   row "bit" "Boolean?" "Boolean" "Bit" (some "GetSqlBoolean") "Boolean" (some "GetBoolean"),
   row "char" "String" "String" "Char" (some "GetSqlString") "String" (some "GetString"),
   row "date" "DateTime?" "DateTime" "Date" (some "GetSqlDateTime") "Date" (some "GetDateTime"),
   row "datetime" "DateTime?" "DateTime" "DateTime"
     (some "GetSqlDateTime") "DateTime" (some "GetDateTime"),
   row "datetime2" "DateTime?" "DateTime" "DateTime2" none "DateTime2" (some "GetDateTime"),
   row "datetimeoffset" "DateTimeOffset?" "DateTimeOffset" "DateTimeOffset"
     none "DateTimeOffset" (some "GetDateTimeOffset"),
   row "decimal" "Decimal?" "Decimal" "Decimal"
     (some "GetSqlDecimal") "Decimal" (some "GetDecimal"),
   row "float" "Double?" "Double" "Float" (some "GetSqlDouble") "Double" (some "GetDouble"),
   row "image" "Byte[]" "Byte[]" "Binary" (some "GetSqlBinary") "Binary" (some "GetBytes"),
   row "int" "Int32?" "Int32" "Int" (some "GetSqlInt32") "Int32" (some "GetInt32"),
   row "money" "Decimal?" "Decimal" "Money" (some "GetSqlMoney") "Decimal" (some "GetDecimal"),
   row "nchar" "String" "String" "NChar"
     (some "GetSqlString") "StringFixedLength" (some "GetString"),
   row "ntext" "String" "String" "NText" (some "GetSqlString") "String" (some "GetString"),
   row "numeric" "Decimal?" "Decimal" "Decimal"
     (some "GetSqlDecimal") "Decimal" (some "GetDecimal"),
   row "nvarchar" "String" "String" "NVarChar" (some "GetSqlString") "String" (some "GetString"),
   row "real" "Single?" "Single" "Real" (some "GetSqlSingle") "Single" (some "GetFloat"),
   row "rowversion" "Byte[]" "Byte[]" "Timestamp"
     (some "GetSqlBinary") "Binary" (some "GetBytes"),
   row "smalldatetime" "DateTime?" "DateTime" "DateTime"
     (some "GetSqlDateTime") "DateTime" (some "GetDateTime"),
   row "smallint" "Int16?" "Int16" "SmallInt" (some "GetSqlInt16") "Int16" (some "GetInt16"),
   row "smallmoney" "Decimal?" "Decimal" "SmallMoney"
     (some "GetSqlMoney") "Decimal" (some "GetDecimal"),
   row "sql_variant" "Object" "Object" "Variant" (some "GetSqlValue") "Object" (some "GetValue"),
   row "sysname" "String" "String" "NVarChar" (some "GetSqlString") "String" (some "GetString"),
   row "text" "String" "String" "Text" (some "GetSqlString") "String" (some "GetString"),
   row "time" "TimeSpan?" "TimeSpan" "Time" none "Time" (some "GetTimeSpan"),
   row "timestamp" "Byte[]" "Byte[]" "Timestamp" (some "GetSqlBinary") "Binary" (some "GetBytes"),
   row "tinyint" "Byte?" "Byte" "TinyInt" (some "GetSqlByte") "Byte" (some "GetByte"),
   row "uniqueidentifier" "Guid?" "Guid" "UniqueIdentifier"
     (some "GetSqlGuid") "Guid" (some "GetGuid"),
   row "varbinary" "Byte[]" "Byte[]" "VarBinary" (some "GetSqlBinary") "Binary" (some "GetBytes"),
   row "varchar" "String" "String" "VarChar" (some "GetSqlString") "String" (some "GetString"),
   row "xml" "Xml" "Xml" "Xml" (some "GetSqlXml") "Xml" none]

/-- The row of a SQL type, by its name without regard to case or surrounding blanks. -/
def ofSource? (name : String) : Option TypeRow :=
  rows.find? fun row => row.sourceName == Text.asciiLower (Text.trim name)

/-- The first row with a spelling. -/
def ofSpelling? (spelling : Spelling) (value : String) : Option TypeRow :=
  match spelling with
  | .sourceName => ofSource? value
  | _ => rows.find? fun row => row.get? spelling == some value

end Catalog

end SchemaPlan
