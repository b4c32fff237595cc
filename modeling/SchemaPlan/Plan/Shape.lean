import SchemaPlan.Schema.Basic

/-!
# Return shapes

What the method of a procedure gives back. The number of its result sets decides first, then the
number of columns and whether there is at most one row. Rows with one column are bare values; other
rows are objects of a class named after the procedure.
-/

namespace SchemaPlan

/-- What a method gives back. -/
inductive ReturnShape where
  /-- The number of rows that changed. -/
  | rowCount
  /-- The only column of the only row. -/
  | value (hostType : String)
  /-- The only column of each row. -/
  | values (hostType : String)
  /-- The only row. -/
  | row (rowClass : String)
  /-- Each row. -/
  | rows (rowClass : String)
  /-- The rows of several result sets. -/
  | bundle (name : String) (rowClasses : List String)
deriving Repr, DecidableEq, Inhabited

/-! ## Names -/

/-- The mark that tells the `index`-th of several things: none, `2`, `3` and so on. -/
def ordinalMark : Nat → String
  | 0 => ""
  | index + 1 => toString (index + 2)

namespace Procedure

/-- The class of the rows of the `index`-th result set. -/
def rowClassName (procedure : Procedure) (index : Nat) : String :=
  procedure.name ++ "OutputDto" ++ ordinalMark index

/-- The class of the rows of a parameter that holds a table. -/
def parameterClassName (procedure : Procedure) (parameter : Parameter) : String :=
  procedure.name ++ "_" ++ parameter.name ++ "ParamDto"

/-- The class of all parameters together. -/
def inputClassName (procedure : Procedure) : String := procedure.name ++ "InputDto"

/-- The class of all result sets together. -/
def bundleClassName (procedure : Procedure) : String := procedure.name ++ "Results"

end Procedure

/-- The host type of a result column. -/
def ResultColumn.hostType (column : ResultColumn) : String :=
  column.type.hostType column.isNullable

/-- A sequence of a host type. -/
def sequenceOf (hostType : String) : String := "IEnumerable<" ++ hostType ++ ">"

/-! ## Classification -/

/-- The shape of a procedure's result. -/
def Procedure.shape (procedure : Procedure) : ReturnShape :=
  match procedure.results with
  | [] => .rowCount
  | [result] =>
    match result.columns, result.isSingleRow with
    | [column], true => .value column.hostType
    | [column], false => .values column.hostType
    | _, true => .row (procedure.rowClassName 0)
    | _, false => .rows (procedure.rowClassName 0)
  | results =>
    .bundle procedure.bundleClassName ((List.range results.length).map procedure.rowClassName)

namespace ReturnShape

/-- The name of the shape. -/
def name : ReturnShape → String
  | rowCount => "affected_row_count"
  | value _ => "scalar_value"
  | values _ => "scalar_sequence"
  | row _ => "single_dto"
  | rows _ => "dto_sequence"
  | bundle _ _ => "result_bundle"

/-- The type that the method returns. -/
def returnType : ReturnShape → String
  | rowCount => "int"
  | value hostType => hostType
  | values hostType => "Result<" ++ sequenceOf hostType ++ ">"
  | row rowClass => "Result<" ++ rowClass ++ ">"
  | rows rowClass => "Result<" ++ sequenceOf rowClass ++ ">"
  | bundle name _ => name

/-- The declaration of the variable that holds the result. -/
def returnVariable (shape : ReturnShape) : String :=
  let type := shape.returnType
  match shape with
  | rowCount => type ++ " result;"
  | value _ => type ++ " result = default(" ++ type ++ ");"
  | _ => type ++ " result = new " ++ type ++ "();"

/-- A sentence on what the method returns, given the name of the first column. -/
def description (firstColumn : String) : ReturnShape → String
  | rowCount => "The number of rows affected."
  | value _ => "The value of " ++ firstColumn
  | values _ => "An IEnumerable of " ++ firstColumn
  | row _ => "A DTO filled with the results of the SELECT statement."
  | rows _ => "An IEnumerable of DTOs filled with the results of the SELECT statement."
  | bundle _ _ =>
    "An object containing all the SELECT results in properties named 'Result', 'Result2', " ++
      "'Result3', etc."

end ReturnShape

/-- The name of the first column of the first result set. -/
def Procedure.firstColumnName (procedure : Procedure) : String :=
  match procedure.results with
  | ⟨column :: _, _, _⟩ :: _ => column.name
  | _ => ""

end SchemaPlan
