import SchemaPlan.Query.Basic
import SchemaPlan.Sql.Name

/-!
# Join trees

The sources of a select as a binary tree. Sources separated by commas are cross joined, joins
lean to the left, and joins in parentheses keep their nesting:

`a LEFT JOIN (b JOIN c ON ..) ON ..` is `join leftOuter a (join inner b c)`.
-/

namespace SchemaPlan

open SchemaPlan.Sql

/-- How the two sides of a join are combined. -/
inductive JoinKind where
  | inner | cross | leftOuter | rightOuter | fullOuter | crossApply | outerApply
deriving Repr, DecidableEq, Inhabited

namespace JoinKind

/-- Whether the left and the right side may be absent from a row of the result. -/
def optionalSides : JoinKind → Bool × Bool
  | .leftOuter => (false, true)
  | .outerApply => (false, true)
  | .rightOuter => (true, false)
  | .fullOuter => (true, true)
  | .inner => (false, false)
  | .cross => (false, false)
  | .crossApply => (false, false)

/-- Joins whose right side has rows only where the sources that the condition names have some. -/
def followsReferences : JoinKind → Bool
  | .inner => true
  | .crossApply => true
  | _ => false

end JoinKind

/-- A single source of a select. -/
inductive Leaf where
  /-- A table, a view, a common table expression, or a table held by a variable. -/
  | source (object : QualifiedName) (label : Option String)
  /-- A query in parentheses with the names that are given to its columns. -/
  | derived (label : Option String) (columns : List String) (query : Query.Query)
  /-- A function, or another source without declared columns. -/
  | function (name : String) (label : Option String)

/-- The name by which the rest of the select refers to a source: its alias, or else its own name. -/
def Leaf.exposedName? : Leaf → Option String
  | .source object label => some (label.getD object.name)
  | .derived label _ _ => label
  | .function _ label => label

/-- The sources of a select. -/
inductive JoinTree where
  | leaf (source : Leaf)
  /-- `references` are the qualifiers that the condition names, in lower case. -/
  | join (kind : JoinKind) (left right : JoinTree) (references : List String)

/-- The leaves from left to right. -/
def JoinTree.leaves : JoinTree → List Leaf
  | .leaf source => [source]
  | .join _ left right _ => left.leaves ++ right.leaves

end SchemaPlan
