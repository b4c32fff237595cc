import SchemaPlan.Plan.Basic

/-!
# The plan of a procedure

A plan depends on nothing but the resolved procedure.
-/

namespace SchemaPlan

namespace Procedure

/-! ## Parameters -/

/-- The host type of a parameter. Single values can be null. -/
def parameterType (procedure : Procedure) (parameter : Parameter) : String :=
  match parameter.kind with
  | .scalar type => type.hostNullable
  | .table _ => sequenceOf (procedure.parameterClassName parameter)

/-- The class of all parameters, if there are any. -/
def inputClass? (procedure : Procedure) : Option DataClass :=
  match procedure.parameters with
  | [] => none
  | parameters =>
    let properties := parameters.map fun parameter =>
      ⟨parameter.name, procedure.parameterType parameter, parameter.isOutput⟩
    some ⟨procedure.inputClassName, properties⟩

/-- How a column of a table parameter is written. -/
def recordField (column : Column) (ordinal : Nat) : RecordField :=
  { name := column.name, ordinal, bindingTag := column.type.bindingTag,
    setter := column.type.recordSetter,
    nullPolicy :=
      if column.isNullable && column.type.isNullableValueType then .whenPresent else .direct }

/-- The property for a column of a table parameter. -/
def columnProperty (column : Column) : ClassProperty :=
  { name := column.name, hostType := column.type.hostType column.isNullable }

/-- How a parameter that holds a table is written. -/
def tablePlan? (procedure : Procedure) (parameter : Parameter) : Option TablePlan :=
  parameter.shape?.map fun shape =>
    { parameter := parameter.name
      rowClass := ⟨procedure.parameterClassName parameter, shape.columns.map columnProperty⟩
      fields := shape.columns.mapIdx fun ordinal column => recordField column ordinal }

/-- A parameter of the method. -/
def methodParameter (procedure : Procedure) (parameter : Parameter) : MethodParameter :=
  { name := parameter.name, hostType := procedure.parameterType parameter,
    isOutput := parameter.isOutput, holdsTable := parameter.shape?.isSome }

/-- How a parameter is bound. -/
def boundParameter (procedure : Procedure) (parameter : Parameter) : BoundParameter :=
  let binding := match parameter.kind with
    | .table _ => Binding.rows (procedure.parameterClassName parameter)
    | .scalar type =>
      if parameter.isOutput then .output type.bindingTag else .input type.bindingTag
  ⟨parameter.name, binding⟩

/-- The parameters that take their values once the command has run. -/
def outputAssignments (procedure : Procedure) : List OutputAssignment :=
  (procedure.parameters.filter (·.isOutput)).map fun parameter =>
    ⟨parameter.name, procedure.parameterType parameter⟩

/-! ## Results -/

/-- The class of the rows of a result set. -/
def rowClass (procedure : Procedure) (index : Nat) (result : ResultSet) : DataClass :=
  let properties := result.columns.map fun column => ⟨column.name, column.hostType, false⟩
  ⟨procedure.rowClassName index, properties⟩

/-- The classes of rows that a shape calls for. -/
def rowClasses (procedure : Procedure) : List DataClass :=
  match procedure.shape with
  | .rowCount | .value _ | .values _ => []
  | .row _ | .rows _ | .bundle _ _ => procedure.results.mapIdx procedure.rowClass

/-- The property of a bundle that takes the rows of the `index`-th result set. -/
def bundlePropertyName (index : Nat) : String := "Result" ++ ordinalMark index

/-- The class of all result sets together, which also has the number of rows that changed. -/
def bundleClass? (shape : ReturnShape) : Option DataClass :=
  match shape with
  | .bundle name rowClasses =>
    let properties := rowClasses.mapIdx fun index rowClass =>
      ⟨bundlePropertyName index, sequenceOf rowClass, false⟩
    some ⟨name, ⟨"RecordsAffected", "int", false⟩ :: properties⟩
  | _ => none

/-- How a column is read. Binary values are read through a buffer, which takes care of nulls; an
item that is the value itself has no property. -/
def columnRead (isItem : Bool) (ordinal : Nat) (column : ResultColumn) : ColumnRead :=
  let isBinary := column.type.isBinary
  { ordinal
    property := if isItem then none else some column.name
    method := if isBinary then .bytes
      else .accessor (column.type.readerAccessor.getD "GetValue")
    checksNull := column.isNullable && !isBinary
    defaultType := column.type.hostNullable }

/-- How the `index`-th of `count` result sets is read. -/
def resultSetRead (procedure : Procedure) (count index : Nat) (result : ResultSet) :
    ResultSetRead :=
  let several := 1 < count
  let isItem := !several && result.columns.length == 1
  let itemType := match result.columns with
    | [column] => if isItem then column.hostType else procedure.rowClassName index
    | _ => procedure.rowClassName index
  { itemType
    gathersRows := several || !result.isSingleRow
    bundleProperty := if several then some (bundlePropertyName index) else none
    advances := several && index + 1 < count
    columns := result.columns.mapIdx (columnRead isItem) }

/-- How the command runs. -/
def execution (procedure : Procedure) : Execution :=
  match procedure.shape with
  | .rowCount => .withoutRows
  | .value hostType => .singleValue hostType
  | .values _ | .row _ | .rows _ | .bundle _ _ =>
    let results := procedure.results
    .reader (results.mapIdx (procedure.resultSetRead results.length))

/-! ## The plan -/

/-- The plan of a procedure. -/
def plan (procedure : Procedure) : CodePlan :=
  let shape := procedure.shape
  { procedure := procedure.name
    declaredName := procedure.declaredName
    shape
    inputClass := procedure.inputClass?
    tables := procedure.parameters.filterMap procedure.tablePlan?
    rowClasses := procedure.rowClasses
    bundleClass := bundleClass? shape
    returnDescription := shape.description procedure.firstColumnName
    parameters := procedure.parameters.map procedure.methodParameter
    bindings := procedure.parameters.map procedure.boundParameter
    execution := procedure.execution
    outputs := procedure.outputAssignments }

end Procedure

end SchemaPlan
