import SchemaPlan.Json.Plan
import SchemaPlan.Json.Schema
import SchemaPlan.Plan.Procedure
import SchemaPlan.Project
import SchemaPlan.Schema.Load

/-!
# Plans from files

The scripts of a project and those that a caller names make a schema; every procedure of the schema
that could be resolved gets a plan. Each step that is done is noted, also if a later one fails.
-/

namespace SchemaPlan

/-- What to load, and how. -/
structure GenerationOptions where
  /-- A project file. -/
  project : Option String := none
  /-- Scripts, and directories of scripts, besides those of the project. -/
  paths : List String := []
  procedurePrefix : String := ""
  /-- The schema of names without one; the project's own gives way to it. -/
  defaultSchema : Option String := none
deriving Repr, DecidableEq, Inhabited

/-- A step of the work that is done. -/
inductive Milestone where
  | readingProject (path : String)
  | foundScripts (count : Nat)
  | parsedStatements (count : Nat)
  | builtModel (tables views tableTypes foreignKeys : Nat)
  | resolvedProcedures (count failed : Nat)
  | plannedProcedures (count : Nat)
  | plannedProcedure (name shape : String)
deriving Repr, DecidableEq, Inhabited

/-- The line that reports a step. -/
def Milestone.line : Milestone → String
  | readingProject path => "Reading project: " ++ path
  | foundScripts count => "Found " ++ toString count ++ " SQL files"
  | parsedStatements count => "Parsed " ++ toString count ++ " SQL statements"
  | builtModel tables views tableTypes foreignKeys =>
    "Built model with " ++ toString tables ++ " tables, " ++ toString views ++ " views, " ++
      toString tableTypes ++ " table types, " ++ toString foreignKeys ++ " foreign keys"
  | resolvedProcedures count failed =>
    "Resolved " ++ toString count ++ " procedures (" ++ toString failed ++ " failed)"
  | plannedProcedures count => "Planned " ++ toString count ++ " procedures"
  | plannedProcedure name shape => "  " ++ name ++ " -> " ++ shape

/-- A model with the plans of its procedures and the failures of those that it lacks. -/
structure Generated where
  model : SchemaModel
  plans : List CodePlan
  failures : List LoadError
deriving Repr, DecidableEq, Inhabited

/-- The value of what is generated. -/
def Generated.toJson (generated : Generated) : Json :=
  .object
    [("model", generated.model.toJson),
     ("plans", .list CodePlan.toJson generated.plans)]

section

variable {m : Type → Type} [Monad m]

/-- Work on files that can fail and notes the steps that are done. -/
abbrev Generation (m : Type → Type) := ExceptT LoadError (StateT (List Milestone) m)

/-- Notes that a step is done. -/
def note (milestone : Milestone) : Generation m Unit :=
  modify fun done => done ++ [milestone]

/-- Work that notes nothing. -/
def silently {α : Type} (work : ExceptT LoadError m α) : Generation m α :=
  ExceptT.mk fun done => do return (← work.run, done)

/-- The text of a script. -/
def readScript (fs : FileSystem m) (path : String) : ExceptT LoadError m String := do
  match ← fs.read path with
  | .error reason => throw (.unreadableScript path reason)
  | .ok content =>
    match Text.decode? content with
    | some text => return text
    | none => throw (.unreadableScript path "the text is not well formed")

/-- The statements of files, in order. -/
def statementsOfFiles (fs : FileSystem m) : List String → ExceptT LoadError m (List PlacedStatement)
  | [] => return []
  | path :: rest => do
    let text ← readScript fs path
    let here ← ExceptT.mk (pure (statementsOfScript path text))
    return here ++ (← statementsOfFiles fs rest)

/-- The model that the options call for. -/
def loadFiles (fs : FileSystem m) (options : GenerationOptions) : Generation m LoadedModel := do
  let project ← match options.project with
    | none => pure none
    | some path =>
      note (.readingProject path)
      pure (some (← silently (Project.read fs path)))
  let named ← silently (Path.discover fs options.paths)
  let scripts := (project.map (·.scripts)).getD [] ++ named
  note (.foundScripts scripts.length)
  let statements ← silently (statementsOfFiles fs scripts)
  note (.parsedStatements statements.length)
  let schema := (options.defaultSchema.or (project.map (·.defaultSchema))).getD "dbo"
  let modelOptions : LoadOptions := ⟨schema, options.procedurePrefix⟩
  let loaded ← ExceptT.mk (pure (buildModel modelOptions (statements.map (·.statement))))
  let model := loaded.model
  note (.builtModel model.tables.length model.views.length model.tableTypes.length
    model.relationships.foreignKeys.length)
  note (.resolvedProcedures model.procedures.length loaded.failures.length)
  return loaded

/-- The model and the plans that the options call for. -/
def generate (fs : FileSystem m) (options : GenerationOptions) : Generation m Generated := do
  let ⟨model, failures⟩ ← loadFiles fs options
  let plans := model.procedures.map Procedure.plan
  note (.plannedProcedures plans.length)
  for plan in plans do
    note (.plannedProcedure plan.procedure plan.shape.name)
  return { model, plans, failures }

end

end SchemaPlan
