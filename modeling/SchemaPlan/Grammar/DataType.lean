import SchemaPlan.Grammar.Parser

/-!
# Data types

A type is read and written back. Types that the grammar knows by keyword are written in their own
spelling, mostly capitals, with the sizes they take. Any other name is the name of a user's type
and is kept as it stands, with whatever is in the parentheses after it.
-/

namespace SchemaPlan.Grammar

open SchemaPlan.Sql SchemaPlan.Query

/-- What may follow the keyword of a type. -/
inductive TypeTail where
  | bare
  /-- A size in parentheses. -/
  | size
  /-- A size in parentheses and the word `UNSIGNED`. -/
  | integer
  /-- A number of characters or `MAX`. -/
  | characters
  /-- A precision and a scale. -/
  | exact
  /-- A precision and a time zone. -/
  | zoned
  /-- Texts in parentheses. -/
  | texts
deriving Repr, DecidableEq, Inhabited

/-- The types that a single keyword names: the keyword, its written form and what may follow. -/
def keywordTypes : List (String × String × TypeTail) :=
  [("BOOLEAN", "BOOLEAN", .bare), ("BOOL", "BOOL", .bare), ("FLOAT", "FLOAT", .size),
   ("REAL", "REAL", .bare), ("FLOAT4", "FLOAT4", .bare), ("FLOAT32", "Float32", .bare),
   ("FLOAT64", "FLOAT64", .bare), ("FLOAT8", "FLOAT8", .bare), ("TINYINT", "TINYINT", .integer),
   ("INT2", "INT2", .integer), ("SMALLINT", "SMALLINT", .integer),
   ("MEDIUMINT", "MEDIUMINT", .integer), ("INT", "INT", .integer), ("INT4", "INT4", .integer),
   ("INT8", "INT8", .integer), ("INT16", "Int16", .bare), ("INT32", "Int32", .bare),
   ("INT64", "INT64", .bare), ("INT128", "Int128", .bare), ("INT256", "Int256", .bare),
   ("INTEGER", "INTEGER", .integer), ("BIGINT", "BIGINT", .integer), ("UINT8", "UInt8", .bare),
   ("UINT16", "UInt16", .bare), ("UINT32", "UInt32", .bare), ("UINT64", "UInt64", .bare),
   ("UINT128", "UInt128", .bare), ("UINT256", "UInt256", .bare),
   ("VARCHAR", "VARCHAR", .characters), ("NVARCHAR", "NVARCHAR", .characters),
   ("CLOB", "CLOB", .size), ("BINARY", "BINARY", .size), ("VARBINARY", "VARBINARY", .size),
   ("BLOB", "BLOB", .size), ("TINYBLOB", "TINYBLOB", .bare), ("MEDIUMBLOB", "MEDIUMBLOB", .bare),
   ("LONGBLOB", "LONGBLOB", .bare), ("BYTES", "BYTES", .size), ("UUID", "UUID", .bare),
   ("DATE", "DATE", .bare), ("DATE32", "Date32", .bare), ("DATETIME", "DATETIME", .size),
   ("TIMESTAMP", "TIMESTAMP", .zoned), ("TIMESTAMPTZ", "TIMESTAMPTZ", .size),
   ("TIME", "TIME", .zoned), ("TIMETZ", "TIMETZ", .size), ("INTERVAL", "INTERVAL", .bare),
   ("JSON", "JSON", .bare), ("JSONB", "JSONB", .bare), ("REGCLASS", "REGCLASS", .bare),
   ("STRING", "STRING", .size), ("TEXT", "TEXT", .bare), ("TINYTEXT", "TINYTEXT", .bare),
   ("MEDIUMTEXT", "MEDIUMTEXT", .bare), ("LONGTEXT", "LONGTEXT", .bare), ("BYTEA", "BYTEA", .bare),
   ("NUMERIC", "NUMERIC", .exact), ("DECIMAL", "DECIMAL", .exact), ("DEC", "DEC", .exact),
   ("BIGNUMERIC", "BIGNUMERIC", .exact), ("BIGDECIMAL", "BIGDECIMAL", .exact),
   ("ENUM", "ENUM", .texts), ("ENUM8", "ENUM8", .texts), ("ENUM16", "ENUM16", .texts),
   ("SET", "SET", .texts), ("TRIGGER", "TRIGGER", .bare)]

/-! ## Sizes -/

/-- A whole number in parentheses, if a parenthesis comes next. -/
def size? : Parser String := do
  if ← seesMark .openParen then
    let n ← parenthesized literalNumber
    return "(" ++ toString n ++ ")"
  else return ""

/-- A number of characters, with its unit, or the greatest one. -/
def characterCount : Parser String := do
  if ← keyword? "MAX" then return "MAX"
  let n ← literalNumber
  match ← oneOf? ["CHARACTERS", "OCTETS"] with
  | some unit => return toString n ++ " " ++ unit
  | none => return toString n

/-- A number of characters in parentheses, if a parenthesis comes next. -/
def characterSize? : Parser String := do
  if ← seesMark .openParen then
    let count ← parenthesized characterCount
    return "(" ++ count ++ ")"
  else return ""

/-- A precision and an optional scale in parentheses, if a parenthesis comes next. -/
def exactSize? : Parser String := do
  if ← mark? .openParen then
    let precision ← literalNumber
    let scale ← if ← mark? .comma then (do return "," ++ toString (← literalNumber)) else pure ""
    expectMark .closeParen
    return "(" ++ toString precision ++ scale ++ ")"
  else return ""

/-- A precision and an optional time zone. -/
def zonedSize? : Parser String := do
  let precision ← size?
  if ← keyword? "WITH" then
    expectKeywords ["TIME", "ZONE"]
    return precision ++ " WITH TIME ZONE"
  else if ← keyword? "WITHOUT" then
    expectKeywords ["TIME", "ZONE"]
    return precision ++ " WITHOUT TIME ZONE"
  else return precision

/-- A text in single quotes. -/
def plainText : Parser String := do
  match ← next? with
  | some ⟨.literal .plain text, _⟩ => return quoted '\'' text
  | some placed => refuseAt placed
  | none => refuseAnywhere

/-- What follows the keyword of a type. -/
def typeTail : TypeTail → Parser String
  | .bare => return ""
  | .size => size?
  | .integer => do
    let size ← size?
    if ← keyword? "UNSIGNED" then return size ++ " UNSIGNED" else return size
  | .characters => characterSize?
  | .exact => exactSize?
  | .zoned => zonedSize?
  | .texts => do
    let texts ← parenthesized (commaSeparated plainText)
    return "(" ++ Text.joinWith ", " texts ++ ")"

/-! ## Types -/

/-- What is in the parentheses after the name of a user's type. Commas may be missing or repeated. -/
def modifiers? : Parser (List String) := do
  if !(← mark? .openParen) then return []
  let found ← many do
    if ← mark? .comma then return some []
    else match ← next? with
      | some ⟨.word text quote, _⟩ => return some [(wordName text quote).text]
      | some ⟨.number digits _, _⟩ => return some [digits]
      | some ⟨.literal .plain text, _⟩ => return some [text]
      | some ⟨.mark .closeParen, _⟩ => return none
      | some placed => refuseAt placed
      | none => refuseAnywhere
  return found.flatten

/-- The name of a user's type with its modifiers. -/
def namedType : Parser TypeText := do
  let name ← objectName
  let modifiers ← modifiers?
  let tail := if modifiers.isEmpty then "" else "(" ++ Text.joinWith ", " modifiers ++ ")"
  return { text := nameText name ++ tail, custom := true }

/-- A type after the words `CHAR` or `CHARACTER`. -/
def characterType (word : String) : Parser TypeText := do
  if ← keyword? "VARYING" then return { text := word ++ " VARYING" ++ (← characterSize?) }
  else if ← keywords? ["LARGE", "OBJECT"] then
    return { text := word ++ " LARGE OBJECT" ++ (← size?) }
  else return { text := word ++ (← characterSize?) }

/-- A type that is not an array of another. -/
def scalarType : Parser TypeText := do
  match ← oneOf? (keywordTypes.map (·.1)) with
  | some keyword =>
    match keywordTypes.find? (·.1 == keyword) with
    | some (_, written, tail) =>
      return { text := written ++ (← typeTail tail), interval := keyword == "INTERVAL" }
    | none => refuse
  | none =>
    if ← keyword? "DOUBLE" then
      if ← keyword? "PRECISION" then return { text := "DOUBLE PRECISION" }
      else return { text := "DOUBLE" ++ (← exactSize?) }
    else if ← keyword? "CHARACTER" then characterType "CHARACTER"
    else if ← keyword? "CHAR" then characterType "CHAR"
    else if ← keyword? "BIT" then
      if ← keyword? "VARYING" then return { text := "BIT VARYING" ++ (← size?) }
      else return { text := "BIT" ++ (← size?) }
    else if ← keywords? ["ANY", "TYPE"] then return { text := "ANY TYPE" }
    else if ← sees Token.isWord then namedType
    else refuse

/-- A type, and whether the angle bracket that closes an array around it has been read. `fuel`
bounds the nesting of arrays. -/
def arrayType : Nat → Parser (TypeText × Bool)
  | 0 => refuse
  | fuel + 1 => do
    if ← keyword? "ARRAY" then
      expectMark .less
      let (element, closed) ← arrayType fuel
      let text := "ARRAY<" ++ element.text ++ ">"
      if closed then return ({ text }, false)
      else if ← mark? .shiftRight then return ({ text }, true)
      else
        expectMark .greater
        return ({ text }, false)
    else return (← scalarType, false)

/-- A data type. -/
def dataType : Parser TypeText := do
  let (type, closed) ← arrayType ((← get).length + 1)
  if closed then refuse else return type

/-! ## Units of time -/

/-- The words that name a unit of time. -/
def timeUnits : List String :=
  ["YEAR", "YEARS", "MONTH", "MONTHS", "WEEK", "WEEKS", "DAY", "DAYOFWEEK", "DAYOFYEAR", "DAYS",
   "DATE", "DATETIME", "HOUR", "HOURS", "MINUTE", "MINUTES", "SECOND", "SECONDS", "CENTURY",
   "DECADE", "DOY", "DOW", "EPOCH", "ISODOW", "ISOYEAR", "ISOWEEK", "JULIAN", "MICROSECOND",
   "MICROSECONDS", "MILLENIUM", "MILLENNIUM", "MILLISECOND", "MILLISECONDS", "NANOSECOND",
   "NANOSECONDS", "QUARTER", "TIME", "TIMEZONE", "TIMEZONE_ABBR", "TIMEZONE_HOUR",
   "TIMEZONE_MINUTE", "TIMEZONE_REGION"]

/-- A unit of time; a week may name its first day. -/
def timeUnit : Parser String := do
  let unit ← expectOneOf timeUnits
  if unit == "WEEK" && (← seesMark .openParen) then
    let day ← parenthesized identifier
    return unit ++ "(" ++ day.text ++ ")"
  else return unit

end SchemaPlan.Grammar
