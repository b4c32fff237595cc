import SchemaPlan.Join.Tree
import SchemaPlan.Text.LowerCase

/-!
# Sources that a row may lack

A source on the optional side of an outer join may be absent from a row, and so may every source
below that side. An inner join whose condition names sources of its left side that are all optional
makes its right side optional too: in `a LEFT JOIN b ON .. JOIN c ON c.x = b.x` the source `c` is
absent wherever `b` is.
-/

namespace SchemaPlan

/-- The set with another member. -/
def insertNew (name : String) (names : List String) : List String :=
  if names.contains name then names else names ++ [name]

namespace JoinTree

/-- The exposed names of the leaves in lower case. -/
def exposedNames (tree : JoinTree) : List String :=
  (tree.leaves.filterMap Leaf.exposedName?).map Text.lower

/-- Whether a condition names a source of the left side, and only such that are forced. -/
def namesOnlyForced (left : JoinTree) (references forced : List String) : Bool :=
  let named := left.exposedNames.filter references.contains
  !named.isEmpty && named.all forced.contains

/-- The forced names with those of a tree; `optional` tells that the tree lies on an optional
side. -/
def force (isOptional : Bool) (forced : List String) : JoinTree → List String
  | .leaf source =>
    match isOptional, source.exposedName? with
    | true, some name => insertNew (Text.lower name) forced
    | _, _ => forced
  | .join kind left right references =>
    let (leftOptional, rightOptional) := kind.optionalSides
    let forced := left.force (isOptional || leftOptional) forced
    -- What the left side has added to the forced names counts already.
    let chained := kind.followsReferences && left.namesOnlyForced references forced
    right.force (isOptional || rightOptional || chained) forced

end JoinTree

/-- The exposed names, in lower case, of the sources that a row may lack. -/
def forcedNames (tree : Option JoinTree) : List String :=
  (tree.map (JoinTree.force false [])).getD []

/-- Whether a source may be absent, by the name under which it is exposed. -/
def isForced (forced : List String) (name : String) : Bool :=
  forced.contains (Text.lower name)

end SchemaPlan
