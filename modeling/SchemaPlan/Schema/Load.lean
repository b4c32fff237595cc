import SchemaPlan.Schema.Views

/-!
# Loading a schema

A fault in a type, a table or a view ends the load. Procedures are resolved one by one against the
finished schema; one that cannot be resolved is reported and left out.
-/

namespace SchemaPlan

open SchemaPlan.Sql

/-- Settings of a load. -/
structure LoadOptions where
  /-- The schema of names without one. -/
  defaultSchema : String := "dbo"
  /-- What the names of procedures start with and methods go without. -/
  procedurePrefix : String := ""
deriving Repr, DecidableEq, Inhabited

/-- A model with the failures of the procedures that are not part of it. -/
structure LoadedModel where
  model : SchemaModel
  failures : List LoadError
deriving Repr, DecidableEq, Inhabited

/-! ## Procedures -/

/-- A parameter of the model. A table type wins over a scalar type, and a type that nothing
describes is unknown. -/
def buildParameter (model : SchemaModel) (definition : ParameterDefinition) : Parameter :=
  let declared := definition.type
  let schema := declared.schema.getD model.defaultSchema
  let kind := match model.tableType? schema declared.name with
    | some shape => ParameterKind.table shape
    | none =>
      let found := resolveType? model.defaultSchema model.aliasTypes declared
      .scalar ((found.map (·.1)).getD .unknown)
  { name := definition.name, isOutput := definition.isOutput,
    defaultValue := definition.defaultValue, kind }

/-- The name of a procedure without the common prefix. A name that is nothing but the prefix is
kept. -/
def methodName (common name : String) : String :=
  match Text.after? common name with
  | some rest => if common.isEmpty || rest.isEmpty then name else rest
  | none => name

/-- The result sets of selects, the first of which is the `number`-th of its procedure. -/
def buildResults (resolver : Resolver) (procedure : String) (number : Nat) :
    List BodySelect → Except LoadError (List ResultSet)
  | [] => .ok []
  | select :: rest =>
    let resolved := match select.query with
      | .ok query => resolver.resultSet? query
      | .error failure => .error (.malformedSelect failure.message)
    match resolved with
    | .ok result => do
      let more ← buildResults resolver procedure (number + 1) rest
      return result.toList ++ more
    | .error cause => .error (.unresolvedProcedure procedure number cause)

/-- A procedure of the model. -/
def buildProcedure (options : LoadOptions) (model : SchemaModel)
    (definition : ProcedureDefinition) : Except LoadError Procedure := do
  let schema := definition.name.schema.getD model.defaultSchema
  let declaredName := definition.name.name
  let parameters := definition.parameters.map (buildParameter model)
  let results ← buildResults ⟨model.catalog, parameters⟩ (fullName schema declaredName) 1
    definition.selects
  return { schema, name := methodName options.procedurePrefix declaredName, declaredName,
           parameters, results }

/-! ## Models -/

/-- The model of statements. -/
def buildModel (options : LoadOptions) (statements : List Statement) :
    Except LoadError LoadedModel := do
  let defs := Definitions.ofStatements options.defaultSchema statements
  defs.checkNames
  let tables ← buildTables defs
  let views ← buildViews defs tables
  let schema := { tables with views }
  let results := defs.procedures.map (buildProcedure options schema)
  let procedures := results.filterMap fun
    | .ok procedure => some procedure
    | .error _ => none
  let failures := results.filterMap fun
    | .ok _ => none
    | .error failure => some failure
  return ⟨{ schema with procedures }, failures⟩

/-- The statements of scripts, each given by its file name and its text. -/
def statementsOfScripts (scripts : List (String × String)) :
    Except LoadError (List PlacedStatement) := do
  return (← scripts.mapM fun (file, text) => statementsOfScript file text).flatten

/-- The model of scripts, each given by its file name and its text. -/
def loadScripts (options : LoadOptions) (scripts : List (String × String)) :
    Except LoadError LoadedModel := do
  buildModel options ((← statementsOfScripts scripts).map (·.statement))

end SchemaPlan
