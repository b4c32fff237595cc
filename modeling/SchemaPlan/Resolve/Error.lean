/-!
# Failures of a select

Why the columns of a select cannot be told. A failure concerns one select only; views and
procedures say which.
-/

namespace SchemaPlan

/-- A reason why the columns of a select cannot be told. -/
inductive ResolveError where
  /-- Two sources go by the same name. -/
  | aliasCollision (label : String)
  /-- A column that no source has. -/
  | unresolvedColumn (column : String)
  /-- A column that several sources have. -/
  | ambiguousColumn (column : String) (candidates : String)
  /-- A qualifier that names no source. -/
  | unknownQualifier (qualifier : String) (column : String)
  /-- A star over a source without known columns. -/
  | unexpandableWildcard (wildcard : String)
  /-- A select that is no readable query. -/
  | malformedSelect (reason : String)
deriving Repr, DecidableEq, Inhabited

/-- The text of a failure. -/
def ResolveError.message : ResolveError → String
  | .aliasCollision label => "alias '" ++ label ++ "' is used by more than one source"
  | .unresolvedColumn column =>
    "column '" ++ column ++ "' does not match any column of the selected sources"
  | .ambiguousColumn column candidates =>
    "column '" ++ column ++ "' is ambiguous between " ++ candidates
  | .unknownQualifier qualifier column =>
    "'" ++ qualifier ++ "' in '" ++ column ++ "' does not name a source of this select"
  | .unexpandableWildcard wildcard =>
    "'" ++ wildcard ++ "' cannot be expanded because the source has no known columns"
  | .malformedSelect reason => "select could not be parsed: " ++ reason

end SchemaPlan
