import SchemaPlan.Plan.ParameterList
import SchemaPlan.Plan.Shape

/-!
# Code plans

Everything that a template needs to write the method of one procedure: the classes that go with it,
how parameters are bound, how the command runs and how its rows are read.
-/

namespace SchemaPlan

/-! ## Classes -/

/-- A property of a class of data. -/
structure ClassProperty where
  name : String
  hostType : String
  /-- The method sets the property, not its caller. -/
  isSetByMethod : Bool := false
deriving Repr, DecidableEq, Inhabited

/-- A class of data. -/
structure DataClass where
  name : String
  properties : List ClassProperty
deriving Repr, DecidableEq, Inhabited

/-! ## Parameters -/

/-- How a value that may be missing is written to a record. -/
inductive NullPolicy where
  /-- A null is written where there is no value. -/
  | whenPresent
  /-- The value is written as it is. -/
  | direct
deriving Repr, DecidableEq, Inhabited

/-- How one column of a table parameter is written to a record. -/
structure RecordField where
  name : String
  ordinal : Nat
  bindingTag : String
  setter : String
  nullPolicy : NullPolicy
deriving Repr, DecidableEq, Inhabited

/-- How the rows of a table parameter are written. -/
structure TablePlan where
  parameter : String
  rowClass : DataClass
  fields : List RecordField
deriving Repr, DecidableEq, Inhabited

/-- How a parameter is bound to the command. -/
inductive Binding where
  | input (tag : String)
  | output (tag : String)
  | rows (rowClass : String)
deriving Repr, DecidableEq, Inhabited

/-- The binding of a parameter. -/
structure BoundParameter where
  name : String
  binding : Binding
deriving Repr, DecidableEq, Inhabited

/-- A parameter that takes its value once the command has run. -/
structure OutputAssignment where
  name : String
  hostType : String
deriving Repr, DecidableEq, Inhabited

/-! ## Execution -/

/-- How the value of a column is read. -/
inductive ReadMethod where
  /-- Through a buffer. -/
  | bytes
  | accessor (name : String)
deriving Repr, DecidableEq, Inhabited

/-- How one column of a row is read. -/
structure ColumnRead where
  ordinal : Nat
  /-- The property that takes the value; none if the item is the value. -/
  property : Option String
  method : ReadMethod
  checksNull : Bool
  /-- The type whose default stands for a null. -/
  defaultType : String
deriving Repr, DecidableEq, Inhabited

/-- How one result set is read. -/
structure ResultSetRead where
  itemType : String
  /-- Rows are gathered in a list. -/
  gathersRows : Bool
  /-- The property of the bundle that takes the list. -/
  bundleProperty : Option String
  /-- Another result set follows. -/
  advances : Bool
  columns : List ColumnRead
deriving Repr, DecidableEq, Inhabited

/-- How a command runs. -/
inductive Execution where
  | withoutRows
  | singleValue (castType : String)
  | reader (resultSets : List ResultSetRead)
deriving Repr, DecidableEq, Inhabited

/-! ## Plans -/

/-- The plan of a procedure's method. -/
structure CodePlan where
  procedure : String
  declaredName : String
  shape : ReturnShape
  /-- The class of all parameters together. -/
  inputClass : Option DataClass
  tables : List TablePlan
  /-- The classes of rows. -/
  rowClasses : List DataClass
  /-- The class of all result sets together. -/
  bundleClass : Option DataClass
  returnDescription : String
  parameters : List MethodParameter
  bindings : List BoundParameter
  execution : Execution
  outputs : List OutputAssignment
deriving Repr, DecidableEq, Inhabited

namespace CodePlan

/-- The type that the method returns. -/
def returnType (plan : CodePlan) : String := plan.shape.returnType

/-- The declaration of the variable that holds the result. -/
def returnVariable (plan : CodePlan) : String := plan.shape.returnVariable

/-- The parameters of the method in a style. -/
def parameterList (plan : CodePlan) (style : ParameterStyle) : String :=
  MethodParameter.renderList plan.parameters style

end CodePlan

end SchemaPlan
