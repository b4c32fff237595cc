import SchemaPlan.Text.Basic

/-!
# Parameter lists

The parameters of a method as they are written where it is declared and where it is called. Each
style has one entry for each parameter, in order.
-/

namespace SchemaPlan

/-- A parameter of a method. -/
structure MethodParameter where
  name : String
  hostType : String
  isOutput : Bool
  /-- The parameter is a sequence of rows. -/
  holdsTable : Bool
deriving Repr, DecidableEq, Inhabited

/-- The ways in which a list of parameters is written. -/
inductive ParameterStyle where
  /-- Types and names. -/
  | declaration
  /-- Types and names, with one type for all sequences of rows. -/
  | genericDeclaration
  /-- Names cast to their types. -/
  | cast
  /-- Names cast to their types, with one type for all sequences of rows. -/
  | genericCast
  /-- Names alone. -/
  | names
  /-- Properties of an input object. -/
  | inputObject
  /-- Casts of the items of an array. -/
  | objectArray
deriving Repr, DecidableEq, Inhabited

/-- The type that stands for every sequence of rows. -/
def genericRows : String := "IEnumerable<ITableValuedParamRow>"

namespace MethodParameter

/-- The word before a parameter that gives a value back. Sequences of rows never do. -/
def direction (parameter : MethodParameter) : String :=
  if parameter.isOutput && !parameter.holdsTable then "out " else ""

/-- The type of a parameter where all sequences of rows have one. -/
def genericType (parameter : MethodParameter) : String :=
  if parameter.holdsTable then genericRows else parameter.hostType

/-- The variable that takes the value of an output parameter. -/
def outputVariable (parameter : MethodParameter) : String := "out " ++ parameter.name ++ "Output"

/-- The entries of parameters that are read from an array, the next item of which is the
`slot`-th. Output parameters take no item. -/
def arrayEntries (slot : Nat) : List MethodParameter → List String
  | [] => []
  | parameter :: rest =>
    if parameter.isOutput then parameter.outputVariable :: arrayEntries slot rest
    else
      ("(" ++ parameter.genericType ++ ")parameters[" ++ toString slot ++ "]") ::
        arrayEntries (slot + 1) rest

/-- The entries of a parameter list. -/
def entries (parameters : List MethodParameter) : ParameterStyle → List String
  | .declaration => parameters.map fun p => p.direction ++ p.hostType ++ " " ++ p.name
  | .genericDeclaration => parameters.map fun p => p.direction ++ p.genericType ++ " " ++ p.name
  | .cast => parameters.map fun p => p.direction ++ "(" ++ p.hostType ++ ")" ++ p.name
  | .genericCast => parameters.map fun p => p.direction ++ "(" ++ p.genericType ++ ")" ++ p.name
  | .names => parameters.map fun p => p.direction ++ p.name
  | .inputObject =>
    parameters.map fun p => if p.isOutput then p.outputVariable else "input." ++ p.name
  | .objectArray => arrayEntries 0 parameters

/-- An array is read into one entry for each parameter. -/
theorem length_arrayEntries (slot : Nat) (parameters : List MethodParameter) :
    (arrayEntries slot parameters).length = parameters.length := by
  induction parameters generalizing slot with
  | nil => rfl
  | cons parameter rest ih =>
    unfold arrayEntries
    split <;> simp [ih]

/-- The text of a parameter list. -/
def renderList (parameters : List MethodParameter) (style : ParameterStyle) : String :=
  Text.joinWith ", " (entries parameters style)

end MethodParameter

end SchemaPlan
