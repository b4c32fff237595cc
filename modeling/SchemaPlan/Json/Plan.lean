import SchemaPlan.Json.Basic
import SchemaPlan.Plan.Basic

/-!
# Documents of plans

The JSON values of code plans. The fields of a shape stand among those of its plan.
-/

namespace SchemaPlan

/-- The fields of a shape. -/
def ReturnShape.fields (shape : ReturnShape) : List (String × Json) :=
  ("shape", .text shape.name) ::
    match shape with
    | .rowCount => []
    | .value hostType => [("host_type", .text hostType)]
    | .values hostType => [("host_type", .text hostType)]
    | .row rowClass => [("dto", .text rowClass)]
    | .rows rowClass => [("dto", .text rowClass)]
    | .bundle name rowClasses => [("bundle", .text name), ("dtos", .texts rowClasses)]

/-- The value of a shape. -/
def ReturnShape.toJson (shape : ReturnShape) : Json := .object shape.fields

/-- The value of a property. -/
def ClassProperty.toJson (property : ClassProperty) : Json :=
  .object
    [("name", .text property.name),
     ("host_type", .text property.hostType),
     ("internal_setter", .bool property.isSetByMethod)]

/-- The value of a class of data. -/
def DataClass.toJson (dataClass : DataClass) : Json :=
  .object
    [("name", .text dataClass.name),
     ("properties", .list ClassProperty.toJson dataClass.properties)]

/-- The name of a null policy. -/
def NullPolicy.name : NullPolicy → String
  | .whenPresent => "CheckHasValue"
  | .direct => "Direct"

/-- The value of a record field. -/
def RecordField.toJson (field : RecordField) : Json :=
  .object
    [("name", .text field.name),
     ("ordinal", .natural field.ordinal),
     ("binding_tag", .text field.bindingTag),
     ("setter", .text field.setter),
     ("null_policy", .text field.nullPolicy.name)]

/-- The value of the plan of a table parameter. -/
def TablePlan.toJson (plan : TablePlan) : Json :=
  .object
    [("parameter", .text plan.parameter),
     ("row_dto", plan.rowClass.toJson),
     ("fields", .list RecordField.toJson plan.fields)]

/-- The value of a parameter of a method. -/
def MethodParameter.toJson (parameter : MethodParameter) : Json :=
  .object
    [("name", .text parameter.name),
     ("host_type", .text parameter.hostType),
     ("is_output", .bool parameter.isOutput),
     ("is_table_value", .bool parameter.holdsTable)]

/-- The name of each style with the value that it gives. -/
def styledLists (write : ParameterStyle → Json) : List (String × Json) :=
  [("declaration", write .declaration),
   ("generic_declaration", write .genericDeclaration),
   ("cast", write .cast),
   ("generic_cast", write .genericCast),
   ("names", write .names),
   ("input_dto", write .inputObject),
   ("object_array", write .objectArray)]

/-- The value of all parameter lists of a method. -/
def MethodParameter.listsToJson (parameters : List MethodParameter) : Json :=
  .object (styledLists fun style => .text (MethodParameter.renderList parameters style))

/-- The fields of a binding. -/
def Binding.fields : Binding → List (String × Json)
  | .input tag => [("direction", .text "input"), ("tag", .text tag)]
  | .output tag => [("direction", .text "output"), ("tag", .text tag)]
  | .rows rowClass => [("direction", .text "structured"), ("row_dto", .text rowClass)]

/-- The value of a bound parameter. -/
def BoundParameter.toJson (parameter : BoundParameter) : Json :=
  .object (("name", .text parameter.name) :: parameter.binding.fields)

/-- The value of a way to read a column. -/
def ReadMethod.toJson : ReadMethod → Json
  | .bytes => .object [("kind", .text "bytes")]
  | .accessor name => .object [("kind", .text "accessor"), ("name", .text name)]

/-- The value of the read of a column. -/
def ColumnRead.toJson (read : ColumnRead) : Json :=
  .object
    [("ordinal", .natural read.ordinal),
     ("property", .optional .text read.property),
     ("method", read.method.toJson),
     ("null_check", .bool read.checksNull),
     ("default_type", .text read.defaultType)]

/-- The value of the read of a result set. -/
def ResultSetRead.toJson (read : ResultSetRead) : Json :=
  .object
    [("item_type", .text read.itemType),
     ("collect_list", .bool read.gathersRows),
     ("bundle_property", .optional .text read.bundleProperty),
     ("advance_after", .bool read.advances),
     ("reads", .list ColumnRead.toJson read.columns)]

/-- The value of an execution. -/
def Execution.toJson : Execution → Json
  | .withoutRows => .object [("kind", .text "non_query")]
  | .singleValue castType => .object [("kind", .text "scalar"), ("cast_type", .text castType)]
  | .reader resultSets =>
    .object [("kind", .text "reader"), ("result_sets", .list ResultSetRead.toJson resultSets)]

/-- The value of an output assignment. -/
def OutputAssignment.toJson (output : OutputAssignment) : Json :=
  .object [("name", .text output.name), ("host_type", .text output.hostType)]

/-- The fields of a plan. -/
def CodePlan.fields (plan : CodePlan) : List (String × Json) :=
  [("procedure", .text plan.procedure),
   ("raw_name", .text plan.declaredName)] ++ plan.shape.fields ++
  [("input_dto", .optional DataClass.toJson plan.inputClass),
   ("table_values", .list TablePlan.toJson plan.tables),
   ("output_dtos", .list DataClass.toJson plan.rowClasses),
   ("bundle", .optional DataClass.toJson plan.bundleClass),
   ("return_type", .text plan.returnType),
   ("return_variable", .text plan.returnVariable),
   ("return_description", .text plan.returnDescription),
   ("method_parameters", .list MethodParameter.toJson plan.parameters),
   ("parameter_lists", MethodParameter.listsToJson plan.parameters),
   ("bindings", .list BoundParameter.toJson plan.bindings),
   ("execution", plan.execution.toJson),
   ("output_assignments", .list OutputAssignment.toJson plan.outputs)]

/-- The value of a plan. -/
def CodePlan.toJson (plan : CodePlan) : Json := .object plan.fields

end SchemaPlan
