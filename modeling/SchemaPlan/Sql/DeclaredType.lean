import SchemaPlan.Sql.Name

/-!
# Declared types

A type as a column or parameter declares it: a name and the sizes that follow it. What a size
means depends on the type: digits of an exact number, digits of a fraction of a second, or a
length.
-/

namespace SchemaPlan.Sql

/-- One of the sizes in parentheses after a type's name. -/
inductive TypeSize where
  | number (n : Nat)
  | max
deriving Repr, DecidableEq, Inhabited

/-- The length of text or binary data. -/
inductive TypeLength where
  | limited (n : Nat)
  | max
deriving Repr, DecidableEq, Inhabited

/-- A length as a signed number, with `-1` for the greatest length. -/
def TypeLength.toInt : TypeLength → Int
  | .limited n => n
  | .max => -1

/-- A declared type with its length, or its precision and scale. -/
structure DeclaredType where
  schema : Option String
  name : String
  length : Option TypeLength := none
  precision : Option Nat := none
  scale : Option Nat := none
deriving Repr, DecidableEq, Inhabited

namespace DeclaredType

/-- Schema of the types that the server provides: none is written, or `sys`. -/
def isSystemSchema (schema : Option String) : Bool :=
  schema.all (Text.sameText · "sys")

/-- Exact numbers take a precision and a scale. -/
def isExactNumber (schema : Option String) (name : String) : Bool :=
  isSystemSchema schema && ["decimal", "numeric"].contains (Text.asciiLower name)

/-- Times take the number of digits after the second. -/
def isFractionalTime (schema : Option String) (name : String) : Bool :=
  isSystemSchema schema && ["datetime2", "time", "datetimeoffset"].contains (Text.asciiLower name)

/-- Precisions and scales that do not fit in a byte are not kept. -/
def digitCount? (n : Nat) : Option Nat :=
  if n < 256 then some n else none

/-- Lengths from two to the thirty-first on are not kept. -/
def length? (n : Nat) : Option TypeLength :=
  if n < 2147483648 then some (.limited n) else none

/-- The type with a name and the sizes written after it. -/
def ofSizes (schema : Option String) (name : String) (sizes : List TypeSize) : DeclaredType :=
  let exact := isExactNumber schema name
  let fractional := isFractionalTime schema name
  match sizes with
  | [] =>
    if exact then { schema, name, precision := some 18, scale := some 0 }
    else if fractional then { schema, name, scale := some 7 }
    else { schema, name }
  | .max :: _ => { schema, name, length := some .max }
  | [.number n] =>
    if exact then { schema, name, precision := digitCount? n, scale := some 0 }
    else if fractional then { schema, name, scale := digitCount? n }
    else { schema, name, length := length? n }
  | .number p :: .number s :: _ =>
    { schema, name, precision := digitCount? p, scale := digitCount? s }
  | .number n :: .max :: _ => { schema, name, length := length? n }

/-- The type's name with its schema. -/
def text (t : DeclaredType) : String :=
  match t.schema with
  | some schema => schema ++ "." ++ t.name
  | none => t.name

end DeclaredType

end SchemaPlan.Sql
