import SchemaPlan.Resolve.Error

/-!
# Failures of a load

Why a schema cannot be loaded, planned or written. A view or a procedure whose select cannot be
resolved carries the reason as its cause.
-/

namespace SchemaPlan

/-- A reason why a schema cannot be loaded or a result cannot be written. -/
inductive LoadError where
  /-- A project file that cannot be read. -/
  | unreadableProject (path reason : String)
  /-- A project file that is no well-formed document. -/
  | malformedProject (path reason : String)
  /-- A path that does not exist. -/
  | missingPath (path : String)
  /-- A script that cannot be read. -/
  | unreadableScript (path reason : String)
  /-- A script that does not follow the grammar, with the line of the fault. -/
  | malformedScript (path : String) (line : Nat) (reason : String)
  /-- A column whose type no catalog row or alias type describes. -/
  | unknownType (object column type : String)
  | duplicateObject (object : String)
  | duplicateColumn (object column : String)
  /-- Views that use each other, from one of them back to it. -/
  | viewCycle (chain : List String)
  | unresolvedView (view : String) (cause : ResolveError)
  /-- The select of a procedure, counted from one, that cannot be resolved. -/
  | unresolvedProcedure (procedure : String) (select : Nat) (cause : ResolveError)
  /-- A file that cannot be written. -/
  | unwritable (path reason : String)
deriving Repr, DecidableEq, Inhabited

namespace LoadError

/-- The text of a failure, without that of its cause. -/
def message : LoadError → String
  | unreadableProject path _ => "Failed to read project file: " ++ path
  | malformedProject path _ => "Failed to parse project file: " ++ path
  | missingPath path => "SQL path does not exist: " ++ path
  | unreadableScript path _ => "Failed to read SQL file: " ++ path
  | malformedScript path line reason =>
    "SQL parse error in " ++ path ++ " at line " ++ toString line ++ ": " ++ reason
  | unknownType object column type =>
    "Column " ++ object ++ "." ++ column ++ " has type '" ++ type ++
      "' which is not in the type catalog"
  | duplicateObject object => "Schema object " ++ object ++ " is defined more than once"
  | duplicateColumn object column =>
    "Column " ++ column ++ " is defined more than once in " ++ object
  | viewCycle chain => "Views reference each other in a cycle: " ++ " -> ".intercalate chain
  | unresolvedView view _ => "Failed to resolve the columns of view " ++ view
  | unresolvedProcedure procedure select _ =>
    "Failed to resolve select #" ++ toString select ++ " of procedure " ++ procedure
  | unwritable path _ => "Failed to write output to " ++ path

/-- Why a select could not be resolved, where that is the cause. -/
def cause? : LoadError → Option ResolveError
  | unresolvedView _ cause => some cause
  | unresolvedProcedure _ _ cause => some cause
  | _ => none

/-- Why a file could not be used, where that is the cause. -/
def reason? : LoadError → Option String
  | unreadableProject _ reason => some reason
  | malformedProject _ reason => some reason
  | unreadableScript _ reason => some reason
  | unwritable _ reason => some reason
  | _ => none

/-- The text of the cause of a failure. -/
def causeText? (e : LoadError) : Option String := (e.cause?.map (·.message)).or e.reason?

end LoadError

end SchemaPlan
